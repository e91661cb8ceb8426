/-
Numbers as scalars write them: in several bases, in groups of sixty, with underscores anywhere. A
scalar that only its tag makes a number may write it less strictly than a plain one.
-/
import JndiScan.Decimal.Real64
import JndiScan.Text.Digit
import JndiScan.Text.LowerCase
import JndiScan.Yaml.Fault

namespace JndiScan.Yaml.Number

/-- The text without underscores. -/
def withoutUnderscores (t : Text) : Text := t.filter (· ≠ .ofChar '_')

/-! ## Whole numbers -/

/-- The value of a digit, letters counting on from ten. -/
def digit? (c : CodePoint) : Option Nat :=
  match Text.digitValue? c with
  | some d => some d
  | none =>
    if 0x41 ≤ c.val && c.val ≤ 0x5A then some (c.val - 0x37)
    else if 0x61 ≤ c.val && c.val ≤ 0x7A then some (c.val - 0x57)
    else none

/-- The number that at least one digit of a base writes. -/
def digits? (base : Nat) (t : Text) : Option Nat :=
  if t.isEmpty then none
  else
    t.foldlM (fun n c =>
      match digit? c with
      | some d => if d < base then some (base * n + d) else none
      | none => none) 0

/-- The letter that may stand after a zero before the digits of a base. -/
def baseLetter (base : Nat) : Text :=
  match base with
  | 2 => "bB"
  | 8 => "oO"
  | 16 => "xX"
  | _ => []

/-- The text without the mark of a base. -/
def withoutMark (base : Nat) : Text → Text
  | z :: c :: rest =>
    if z = .ofChar '0' && (baseLetter base).contains c then rest else z :: c :: rest
  | t => t

/-- The number of decimal digits that a text starts with. -/
def leadingDigits (t : Text) : Nat := (t.takeWhile fun c => (Text.digitValue? c).isSome).length

/-- A number in a base, with blanks around it and perhaps a sign. In base ten the digits that it
starts with are limited in number, whatever follows them. -/
def inBase (base : Nat) (t : Text) : Except Fault Int :=
  let bare : Text := Text.trimWhere Text.isNumberBlank t
  let (negative, unsigned) : Bool × Text :=
    match bare with
    | c :: rest => if c = .ofChar '-' then (true, rest) else if c = .ofChar '+' then (false, rest)
      else (false, bare)
    | [] => (false, [])
  let length := leadingDigits unsigned
  if base = 10 && length > Text.maxDigits then .error (.longInteger length)
  else
    match digits? base (withoutMark base unsigned) with
    | some n => .ok (if negative then -(n : Int) else n)
    | none => .error (.integer base t)

/-- The sum of whole numbers in groups of sixty, the most significant first. -/
def bySixty (parts : List Int) : Int := parts.foldl (fun sum p => 60 * sum + p) 0

/-- A whole number: its sign, and after it a zero, or the mark of base two or sixteen, or a zero
that is the mark of base eight, or groups of sixty, or decimal digits. -/
def integer (t : Text) : Except Fault Int := do
  match withoutUnderscores t with
  | [] => throw .emptyNumber
  | c :: rest =>
    let negative := c = .ofChar '-'
    let unsigned : Text := if negative || c = .ofChar '+' then rest else c :: rest
    let n ←
      if unsigned = ("0" : Text) then pure 0
      else if unsigned.startsWith "0b" then inBase 2 (unsigned.drop 2)
      else if unsigned.startsWith "0x" then inBase 16 (unsigned.drop 2)
      else
        match unsigned with
        | [] => throw .emptyNumber
        | d :: _ =>
          if d = .ofChar '0' then inBase 8 unsigned
          else if unsigned.contains (.ofChar ':') then do
            let parts ← (unsigned.splitOn (.ofChar ':')).mapM (inBase 10)
            pure (bySixty parts)
          else inBase 10 unsigned
    pure (if negative then -n else n)

/-! ## Numbers with a fraction -/

/-- The number that decimal digits of any script write. -/
def decimalDigits? (t : Text) : Option Nat :=
  t.foldlM (fun n c => (Text.digitValue? c).map (10 * n + ·)) 0

/-- An exponent with its letter, or nothing. -/
def exponent? : Text → Option Int
  | [] => some 0
  | c :: rest =>
    if c = .ofChar 'e' then
      let (negative, ds) : Bool × Text :=
        match rest with
        | s :: ds => if s = .ofChar '-' then (true, ds) else if s = .ofChar '+' then (false, ds)
          else (false, rest)
        | [] => (false, [])
      if ds.isEmpty then none
      else (decimalDigits? ds).map fun n => if negative then -(n : Int) else n
    else none

/-- A magnitude: digits, a point and digits of which one side may be missing, an exponent; or a
word for what is no number or too large for one. -/
def magnitude? (t : Text) : Option Real64 :=
  if t = ("inf" : Text) || t = ("infinity" : Text) then some (.infinite false)
  else if t = ("nan" : Text) then some .nan
  else do
    let isDigit (c : CodePoint) : Bool := (Text.digitValue? c).isSome
    let whole : Text := t.takeWhile isDigit
    let rest : Text := t.dropWhile isDigit
    let (fraction, rest) : Text × Text :=
      match rest with
      | c :: after => if c = .ofChar '.' then (after.takeWhile isDigit, after.dropWhile isDigit)
        else ([], rest)
      | [] => ([], [])
    if whole.isEmpty && fraction.isEmpty then none
    else
      let e ← exponent? rest
      let n ← decimalDigits? (whole ++ fraction)
      some (Real64.ofDecimal false n (e - fraction.length))

/-- A number with a fraction, with blanks around it and perhaps a sign. -/
def signed (t : Text) : Except Fault Real64 :=
  let bare : Text := Text.trimWhere Text.isNumberBlank t
  let found :=
    match bare with
    | c :: rest =>
      if c = .ofChar '-' then (magnitude? rest).map Real64.neg
      else if c = .ofChar '+' then magnitude? rest
      else magnitude? bare
    | [] => none
  match found with
  | some x => .ok x
  | none => .error (.real t)

/-- The sum of numbers in groups of sixty, the least significant first, the first of which has the
weight `unit`. A weight has to be a number with a fraction itself. -/
def sumBySixty (sum : Real64) (unit : Nat) : List Real64 → Except Fault Real64
  | [] => .ok sum
  | x :: xs =>
    match Real64.ofNat unit with
    | .infinite _ => .error .largeUnit
    | weight => sumBySixty (sum.add (x.mul weight)) (60 * unit) xs

/-- The text of a number with a fraction, after its sign, and whether that is negative. -/
def realText (t : Text) : Except Fault (Bool × Text) :=
  match (withoutUnderscores t).lower with
  | [] => .error .emptyNumber
  | c :: rest =>
    let negative := c = .ofChar '-'
    .ok (negative, if negative || c = .ofChar '+' then rest else c :: rest)

/-- A number with a fraction: its sign, and after it a word with a point, groups of sixty, or a
decimal number. Nothing is given for the word for what is no number. -/
def real (t : Text) : Except Fault (Option Real64) := do
  let (negative, unsigned) ← realText t
  if unsigned = (".nan" : Text) then pure none
  else
    let x ←
      if unsigned = (".inf" : Text) then pure (.infinite false)
      else if unsigned.contains (.ofChar ':') then do
        let parts ← (unsigned.splitOn (.ofChar ':')).mapM signed
        sumBySixty (.ofNat 0) 1 parts.reverse
      else signed unsigned
    pure (some (if negative then x.neg else x))

end JndiScan.Yaml.Number
