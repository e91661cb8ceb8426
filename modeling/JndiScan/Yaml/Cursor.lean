/-
A place in the text of a document, with its line and column, and the steps that read from it. A
document holds no NUL, so NUL stands for its end.
-/
import JndiScan.Yaml.Source

namespace JndiScan.Yaml

/-! ## Classes of code points -/

/-- The end of a line. -/
def isBreak (c : CodePoint) : Bool :=
  c.val == 0x0A || c.val == 0x0D || c.val == 0x85 || c.val == 0x2028 || c.val == 0x2029

/-- The end of a line or of the document. -/
def isLineEnd (c : CodePoint) : Bool := c.val == 0 || isBreak c

/-- A blank. -/
def isBlank (c : CodePoint) : Bool := c.val == 0x20

/-- A blank or a tab. -/
def isBlankOrTab (c : CodePoint) : Bool := c.val == 0x20 || c.val == 0x09

/-- What ends a word in a directive or tag. -/
def endsWord (c : CodePoint) : Bool := isBlank c || isLineEnd c

/-- What makes an indicator of the code point before it. -/
def isGap (c : CodePoint) : Bool := isBlankOrTab c || isLineEnd c

/-- What names of anchors, directives and tag handles are made of. -/
def isNamePart (c : CodePoint) : Bool :=
  c.isDigit || (0x41 ≤ c.val && c.val ≤ 0x5A) || (0x61 ≤ c.val && c.val ≤ 0x7A) || c.val == 0x2D
    || c.val == 0x5F

/-- Is a code point one of those in a text? -/
def isOneOf (ones : Text) (c : CodePoint) : Bool := ones.contains c

/-- The value of a hexadecimal digit. -/
def hexValue? (c : CodePoint) : Option Nat :=
  let n := c.val
  if 0x30 ≤ n && n ≤ 0x39 then some (n - 0x30)
  else if 0x41 ≤ n && n ≤ 0x46 then some (n - 0x37)
  else if 0x61 ≤ n && n ≤ 0x66 then some (n - 0x57)
  else none

/-- The number that hexadecimal digits write. -/
def hexNumber? (ds : Text) : Option Nat :=
  ds.foldlM (fun n c => (hexValue? c).map (16 * n + ·)) 0

/-! ## Places -/

/-- A place: what follows it as far as that is known, the fault that comes to light when more is
needed, the length of the whole text, how much precedes the place, and its line and column. -/
structure Cursor where
  rest : Text
  stop : Option Fault := none
  length : Nat := rest.length
  index : Nat := 0
  line : Nat := 0
  column : Nat := 0

namespace Cursor

/-- The code point `n` places ahead. -/
def peek (c : Cursor) (n : Nat := 0) : CodePoint := c.rest.getD n (.ofNat 0)

/-- The place after the next code point. A byte order mark takes no column. -/
def next (c : Cursor) : Cursor :=
  match c.rest with
  | [] => c
  | ch :: rest =>
    let index := c.index + 1
    if isBreak ch && !(ch.val == 0x0D && rest.head? == some (.ofChar '\n')) then
      { c with rest, index, line := c.line + 1, column := 0 }
    else if ch.val = 0xFEFF then { c with rest, index }
    else { c with rest, index, column := c.column + 1 }

/-- The place after the next `n` code points. -/
def advance (c : Cursor) : Nat → Cursor
  | 0 => c
  | n + 1 => c.next.advance n

/-- Does a line that separates documents start here? -/
def atSeparator (c : Cursor) : Bool :=
  (c.rest.take 3 = ("---" : Text) || c.rest.take 3 = ("..." : Text)) && isGap (c.peek 3)

end Cursor

/-- A reading step. -/
abbrev Scan := EStateM Fault Cursor

namespace Scan

/-- The document is malformed here. -/
def malformed : Scan α := throw .malformed

/-- Makes sure that what is known reaches as far as `n` code points, or to the end. -/
def need (n : Nat) : Scan Unit := do
  let c ← get
  match c.stop with
  | some fault => if (c.rest.drop (n - 1)).isEmpty then throw fault
  | none => pure ()

/-- The code point `n` places ahead, which is not passed. -/
def peek (n : Nat := 0) : Scan CodePoint := do
  need (n + 1)
  return (← get).peek n

/-- Passes `n` code points. What comes next is known then. -/
def skip (n : Nat := 1) : Scan Unit := do
  need (n + 1)
  modify (·.advance n)

/-- Passes the code points of a class and gives them. -/
def takeWhile (p : CodePoint → Bool) : Scan Text := do
  let t := (← get).rest.takeWhile p
  skip t.length
  pure t

/-- Passes `n` code points and gives them. -/
def take (n : Nat) : Scan Text := do
  let t := (← get).rest.take n
  skip n
  pure t

/-- Passes blanks. -/
def blanks : Scan Unit := do
  let _ ← takeWhile isBlank

/-- Passes the rest of the line. -/
def restOfLine : Scan Unit := do
  let _ ← takeWhile (!isLineEnd ·)

/-- Passes a comment if there is one. -/
def comment : Scan Unit := do
  if (← peek) = .ofChar '#' then restOfLine

/-- Passes the end of a line if it is here. It is given as a line feed, except for the separators
of lines and paragraphs, which are kept. -/
def lineBreak : Scan Text := do
  let c ← peek
  if c.val = 0x0D then
    skip (if (← peek 1) = .ofChar '\n' then 2 else 1)
    pure "\n"
  else if c.val = 0x0A || c.val = 0x85 then
    skip
    pure "\n"
  else if isBreak c then
    skip
    pure [c]
  else pure []

/-- Passes blanks, a comment and the end of the line, and nothing else. -/
def ignoredLine : Scan Unit := do
  blanks
  comment
  if isLineEnd (← peek) then
    let _ ← lineBreak
  else malformed

/-- A bound of the steps of a loop that passes a code point in each: the length of the text. -/
def bound : Scan Nat := return (← get).length + 1

end Scan

end JndiScan.Yaml
