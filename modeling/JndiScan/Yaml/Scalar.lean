/-
Scalars: the tag that a plain one has by its looks, and the value that a scalar has by its tag.
-/
import JndiScan.Rules.Value
import JndiScan.Yaml.Number
import JndiScan.Yaml.Octets
import JndiScan.Yaml.Timestamp

namespace JndiScan.Yaml

/-- The kinds of nodes that every document may hold, by the last part of their tags. -/
inductive Tag
  | null
  | bool
  | int
  | float
  | binary
  | timestamp
  | str
  | seq
  | map
  | set
  | omap
  | pairs
  /-- The key whose value is merged into a mapping. -/
  | merge
  /-- The key of the value that a mapping stands for. -/
  | value
  | unknown
  deriving DecidableEq, Repr

namespace Tag

/-- What the tags of the usual kinds begin with. -/
def core : Text := "tag:yaml.org,2002:"

/-- The kinds by their names. -/
def names : List (Text × Tag) :=
  [("null", null), ("bool", bool), ("int", int), ("float", float), ("binary", binary),
    ("timestamp", timestamp), ("str", str), ("seq", seq), ("map", map), ("set", set),
    ("omap", omap), ("pairs", pairs), ("merge", merge), ("value", value)]

/-- The kind of a tag. -/
def ofText (t : Text) : Tag :=
  if t.startsWith core then (names.lookup (t.drop core.length)).getD unknown else unknown

end Tag

namespace Scalar

/-! ## Looks -/

/-- The truth values by their spellings in small letters. -/
def truths : List (Text × Bool) :=
  [("yes", true), ("no", false), ("true", true), ("false", false), ("on", true), ("off", false)]

/-- The word in small letters, in capitals, or with a capital first. -/
def spellings (word : Text) : List Text :=
  let capital (c : CodePoint) : CodePoint := .ofNat (c.val - 0x20)
  [word, (word.take 1).map capital ++ word.drop 1, word.map capital]

/-- Is a text a word in one of its spellings? -/
def spells (word t : Text) : Bool := (spellings word).contains t

/-- A truth value in one of its spellings. -/
def looksTruth (t : Text) : Bool := truths.any fun w => spells w.1 t

/-- Nothing in one of its spellings. -/
def looksNull (t : Text) : Bool := t.isEmpty || t = ("~" : Text) || spells "null" t

/-- The text without a sign. -/
def unsigned (t : Text) : Text :=
  match t with
  | c :: rest => if c = .ofChar '-' || c = .ofChar '+' then rest else t
  | [] => []

/-- Digits and underscores. -/
def isDigitOr (c : CodePoint) : Bool := c.isDigit || c = .ofChar '_'

/-- A group of sixty: one digit, or two of which the first is below six. -/
def looksGroup (t : Text) : Bool :=
  match t with
  | [a] => a.isDigit
  | [a, b] => a.isDigit && a.val < 0x36 && b.isDigit
  | _ => false

/-- A whole number: in base two, eight, sixteen or ten, or in groups of sixty. -/
def looksInteger (t : Text) : Bool :=
  let t := unsigned t
  match t with
  | [] => false
  | c :: rest =>
    if c = .ofChar '0' then
      match rest with
      | [] => true
      | m :: ds =>
        if m = .ofChar 'b' then
          !ds.isEmpty && ds.all fun d => isOneOf "01_" d
        else if m = .ofChar 'x' then
          !ds.isEmpty && ds.all fun d => (hexValue? d).isSome || d = .ofChar '_'
        else rest.all fun d => isOneOf "01234567_" d
    else
      c.isDigit &&
        match t.splitOn (.ofChar ':') with
        | [] => false
        | first :: groups => first.all isDigitOr && groups.all looksGroup

/-- Nothing, or an exponent with a sign. -/
def looksExponent (t : Text) : Bool :=
  match t with
  | [] => true
  | [_] => false
  | e :: s :: ds =>
    (e = .ofChar 'e' || e = .ofChar 'E') && (s = .ofChar '-' || s = .ofChar '+') && !ds.isEmpty
      && ds.all CodePoint.isDigit

/-- A number with a fraction: digits before the point, or no sign and digits after it; groups of
sixty; or a word with a point. -/
def looksReal (t : Text) : Bool :=
  let bare := unsigned t
  let whole : Text := bare.takeWhile isDigitOr
  let rest : Text := bare.dropWhile isDigitOr
  let startsWithDigit : Bool := (whole.head?.map CodePoint.isDigit).getD false
  let decimal : Bool :=
    match rest with
    | c :: after =>
      c = .ofChar '.' &&
        if startsWithDigit then looksExponent (after.dropWhile isDigitOr)
        else
          whole.isEmpty && bare.length = t.length && (after.head?.map CodePoint.isDigit).getD false
            && looksExponent (after.dropWhile isDigitOr)
    | [] => false
  let sixties : Bool :=
    match bare.splitOn (.ofChar '.') with
    | [groups, fraction] =>
      match groups.splitOn (.ofChar ':') with
      | first :: group :: groups =>
        startsWithDigit && first.all isDigitOr && (group :: groups).all looksGroup
          && fraction.all isDigitOr
      | _ => false
    | _ => false
  let infinity : Bool := bare.head? = some (.ofChar '.') && (spells "inf" (bare.drop 1))
  let noNumber : Bool :=
    t.head? = some (.ofChar '.')
      && [("nan" : Text), "NaN", "NAN"].contains (t.drop 1)
  decimal || sixties || infinity || noNumber

/-- The kind that a plain scalar has by its looks. A line end after it does not count. -/
def kindOf (t : Text) : Tag :=
  let line : Text := if 1 < t.length && t.getLast? = some (.ofChar '\n') then t.dropLast else t
  if looksTruth line then .bool
  else if looksReal line then .float
  else if looksInteger line then .int
  else if line = ("<<" : Text) then .merge
  else if looksNull line then .null
  else if Timestamp.isPlain t then .timestamp
  else if line = ("=" : Text) then .value
  else if [("!" : Text), "&", "*"].contains line then .unknown
  else .str

/-! ## Values -/

/-- The number with a fraction that a scalar at a place of the document writes. -/
def real (origin : Nat) (t : Text) : Except Fault Value := do
  match ← Number.real t with
  | none => pure (.noNumber none)
  | some .nan => pure (.noNumber (some origin))
  | some x => pure (.real x)

/-- The value of a scalar of a kind at a place of the document. What no scalar can be is
malformed. -/
def value (kind : Tag) (origin : Nat) (t : Text) : Except Fault Value :=
  match kind with
  | .str => .ok (.text t)
  | .null => .ok .null
  | .bool =>
    let small := t.lower
    match truths.lookup small with
    | some b => .ok (.bool b)
    | none => .error (.truth small)
  | .int => (Number.integer t).map .int
  | .float => real origin t
  | .binary =>
    match Octets.ofText? t with
    | some bs => .ok (.octets bs)
    | none => .error .malformed
  | .timestamp =>
    match Timestamp.written? t with
    | none => .error .instant
    | some w =>
      match w.time with
      | none => ((Timestamp.dayOf w).mapError .calendar).map .day
      | some time => (Timestamp.instantOf w time).map .instant
  | .seq | .map | .set | .omap | .pairs | .merge | .value | .unknown => .error .malformed

end Scalar

end JndiScan.Yaml
