/-
Reading JSON. Texts written with halves of surrogate pairs are joined where a high half is followed
by a low one, as a pair stands for one code point; other halves are kept. The reader works through
the text with a bound on the number of values, which the length of the text meets.
-/
import JndiScan.Json.Basic

namespace JndiScan.Json

/-- Blanks between the parts of a value. -/
def isBlank (c : CodePoint) : Bool :=
  c.val == 0x20 || c.val == 0x09 || c.val == 0x0A || c.val == 0x0D

/-- The text without the blanks that it starts with. -/
def skipBlanks (t : Text) : Text := t.dropWhile isBlank

/-- The value of a hexadecimal digit. -/
def hexValue? (c : CodePoint) : Option Nat :=
  if c.isDigit then some (c.val - 0x30)
  else if 0x61 ≤ c.val && c.val ≤ 0x66 then some (c.val - 0x57)
  else if 0x41 ≤ c.val && c.val ≤ 0x46 then some (c.val - 0x37)
  else none

/-- The value of four hexadecimal digits. -/
def hex4? (a b c d : CodePoint) : Option Nat := do
  pure (((← hexValue? a) * 16 + (← hexValue? b)) * 256 + (← hexValue? c) * 16 + (← hexValue? d))

/-- The code point of a short escape. -/
def shortEscape? (c : CodePoint) : Option CodePoint :=
  if c = .ofChar '"' || c = .ofChar '\\' || c = .ofChar '/' then some c
  else if c = .ofChar 'n' then some (.ofChar '\n')
  else if c = .ofChar 'r' then some (.ofChar '\r')
  else if c = .ofChar 't' then some (.ofChar '\t')
  else if c = .ofChar 'b' then some (.ofNat 0x08)
  else if c = .ofChar 'f' then some (.ofNat 0x0C)
  else none

/-- A code point read, with the halves of a pair joined. `done` holds what was read before, last
first, and whether its last code point is a high half that was written by its number. -/
structure TextSoFar where
  done : Text := []
  openHalf : Bool := false

/-- One more code point that stands for itself. -/
def TextSoFar.push (s : TextSoFar) (c : CodePoint) : TextSoFar := ⟨c :: s.done, false⟩

/-- One more code point written by its number. -/
def TextSoFar.pushNumbered (s : TextSoFar) (n : Nat) : TextSoFar :=
  match s.openHalf, s.done with
  | true, high :: before =>
    if 0xDC00 ≤ n && n ≤ 0xDFFF then
      ⟨.ofNat (0x10000 + (high.val - 0xD800) * 0x400 + (n - 0xDC00)) :: before, false⟩
    else ⟨.ofNat n :: s.done, 0xD800 ≤ n && n ≤ 0xDBFF⟩
  | _, _ => ⟨.ofNat n :: s.done, 0xD800 ≤ n && n ≤ 0xDBFF⟩

/-- The rest of a text after its opening mark, and what follows the closing mark. -/
def readTextFrom (s : TextSoFar) : Text → Option (Text × Text)
  | [] => none
  | c :: rest =>
    if c = .ofChar '"' then some (s.done.reverse, rest)
    else if c = .ofChar '\\' then
      match rest with
      | [] => none
      | e :: rest =>
        if e = .ofChar 'u' then
          match rest with
          | a :: b :: c :: d :: rest =>
            match hex4? a b c d with
            | some n => readTextFrom (s.pushNumbered n) rest
            | none => none
          | _ => none
        else
          match shortEscape? e with
          | some c => readTextFrom (s.push c) rest
          | none => none
    else if c.val < 0x20 then none
    else readTextFrom (s.push c) rest

/-- The value of decimal digits. -/
def digitsValue (ds : Text) : Nat := ds.foldl (fun n c => 10 * n + (c.val - 0x30)) 0

/-- An exponent, if one follows. -/
def readExponent (t : Text) : Option (Option Int × Text) :=
  match t with
  | e :: rest =>
    if e = .ofChar 'e' || e = .ofChar 'E' then
      let (negative, digits) : Bool × Text :=
        match rest with
        | s :: rest' =>
          if s = .ofChar '-' then (true, rest')
          else if s = .ofChar '+' then (false, rest')
          else (false, rest)
        | [] => (false, [])
      let ds := digits.takeWhile (·.isDigit)
      if ds.isEmpty then none
      else
        let n : Int := digitsValue ds
        some (some (if negative then -n else n), digits.dropWhile (·.isDigit))
    else some (none, t)
  | [] => some (none, t)

/-- The part of a number after its sign. A number does not start with a superfluous zero. -/
def readMagnitude (negative : Bool) (t : Text) : Option (Json × Text) := do
  let whole : Text := t.takeWhile (·.isDigit)
  let rest : Text := t.dropWhile (·.isDigit)
  if whole.isEmpty || (whole.length > 1 && whole.head? = some (.ofChar '0')) then none
  else
    let (fraction, rest) : Text × Text :=
      match rest with
      | p :: rest' =>
        if p = .ofChar '.' && !(rest'.takeWhile (·.isDigit)).isEmpty then
          (rest'.takeWhile (·.isDigit), rest'.dropWhile (·.isDigit))
        else ([], rest)
      | [] => ([], rest)
    let (exponent?, rest) ← readExponent rest
    if fraction.isEmpty && exponent?.isNone then
      let n : Int := digitsValue whole
      some (int (if negative then -n else n), rest)
    else
      some (decimal negative (digitsValue (whole ++ fraction))
        (exponent?.getD 0 - fraction.length), rest)

/-- A word, and what follows it. -/
def readWord (word : Text) (value : Json) (t : Text) : Option (Json × Text) :=
  if t.startsWith word then some (value, t.drop word.length) else none

mutual

/-- A value and what follows it. -/
def readValue : Nat → Text → Option (Json × Text)
  | 0, _ => none
  | fuel + 1, t =>
    match skipBlanks t with
    | [] => none
    | c :: rest =>
      if c = .ofChar '"' then do
        let (s, rest) ← readTextFrom {} rest
        some (text s, rest)
      else if c = .ofChar '[' then
        match skipBlanks rest with
        | d :: rest' =>
          if d = .ofChar ']' then some (list [], rest') else readItems fuel [] rest
        | [] => none
      else if c.val = 0x7B then
        match skipBlanks rest with
        | d :: rest' => if d.val = 0x7D then some (object [], rest') else readFields fuel [] rest
        | [] => none
      else if c = .ofChar 't' then readWord "true" (bool true) (c :: rest)
      else if c = .ofChar 'f' then readWord "false" (bool false) (c :: rest)
      else if c = .ofChar 'n' then readWord "null" null (c :: rest)
      else if c = .ofChar '-' then readMagnitude true rest
      else readMagnitude false (c :: rest)

/-- The items of a list up to its end, after those in `done`, which are held last first. -/
def readItems : Nat → List Json → Text → Option (Json × Text)
  | 0, _, _ => none
  | fuel + 1, done, t => do
    let (item, rest) ← readValue fuel t
    match skipBlanks rest with
    | [] => none
    | c :: rest =>
      if c = .ofChar ',' then readItems fuel (item :: done) rest
      else if c = .ofChar ']' then some (list (item :: done).reverse, rest)
      else none

/-- The fields of an object up to its end, after those in `done`, which are held last first. -/
def readFields : Nat → List (Text × Json) → Text → Option (Json × Text)
  | 0, _, _ => none
  | fuel + 1, done, t =>
    match skipBlanks t with
    | [] => none
    | q :: rest => do
      if q ≠ .ofChar '"' then none
      else
        let (key, rest) ← readTextFrom {} rest
        match skipBlanks rest with
        | [] => none
        | c :: rest =>
          if c ≠ .ofChar ':' then none
          else
            let (value, rest) ← readValue fuel rest
            match skipBlanks rest with
            | [] => none
            | c :: rest =>
              if c = .ofChar ',' then readFields fuel ((key, value) :: done) rest
              else if c.val = 0x7D then some (object ((key, value) :: done).reverse, rest)
              else none

end

/-- The value that a text writes, with nothing but blanks around it. -/
def read (t : Text) : Option Json :=
  match readValue (2 * t.length + 2) t with
  | some (j, rest) => if (skipBlanks rest).isEmpty then some j else none
  | none => none

end JndiScan.Json
