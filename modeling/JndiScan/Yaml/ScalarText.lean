/-
The text of scalars: blocks of whole lines, quoted texts, and plain texts. Lines are folded: a
single line end becomes a blank, and of several all but the first are kept.
-/
import JndiScan.Yaml.Cursor

namespace JndiScan.Yaml.ScalarText

open Scan

/-- What two lines are joined with, from the first line end between them and the further ones. -/
def fold (lineEnd further : Text) : Text :=
  if lineEnd ≠ "\n" then lineEnd ++ further
  else if further.isEmpty then " "
  else further

/-! ## Blocks -/

/-- What becomes of the line ends at the end of a block. -/
inductive Chomping
  | clip
  | keep
  | strip
  deriving DecidableEq

/-- The sign of a chomping. -/
def chomping? (c : CodePoint) : Option Chomping :=
  if c = .ofChar '+' then some .keep else if c = .ofChar '-' then some .strip else none

/-- The sign of a chomping, passed if it is here. -/
def chomping : Scan Chomping := do
  match chomping? (← peek) with
  | some c => do
    skip
    pure c
  | none => pure .clip

/-- The digit of an indentation, passed if it is here; there is no indentation of zero. -/
def increment : Scan (Option Nat) := do
  let c ← peek
  if c.isDigit then
    if c = .ofChar '0' then malformed
    else do
      skip
      pure (some (c.val - 0x30))
  else pure none

/-- The signs after the indicator of a block, in either order. -/
def blockSigns : Scan (Chomping × Option Nat) := do
  let signs ←
    if (chomping? (← peek)).isSome then do
      let c ← chomping
      pure (c, ← increment)
    else do
      match ← increment with
      | some n => pure (← chomping, some n)
      | none => pure (.clip, none)
  if endsWord (← peek) then pure signs else malformed

/-- The empty lines before a block, and the largest column that blanks reach in them or in the
line after them. -/
def leadingLines (done : Text) (column : Nat) : Nat → Scan (Text × Nat)
  | 0 => malformed
  | fuel + 1 => do
    let c ← peek
    if isBlank c then do
      skip
      leadingLines done (max column (← get).column) fuel
    else if isBreak c then do
      let b ← lineBreak
      leadingLines (done ++ b) column fuel
    else pure (done, column)

/-- Passes blanks up to a column. -/
def blanksUpTo (column : Nat) : Scan Unit := do
  let c ← get
  skip ((c.rest.takeWhile isBlank).length.min (column - c.column))

/-- The empty lines between lines of a block. -/
def emptyLines (indent : Nat) (done : Text) : Nat → Scan Text
  | 0 => malformed
  | fuel + 1 => do
    if isBreak (← peek) then do
      let b ← lineBreak
      blanksUpTo indent
      emptyLines indent (done ++ b) fuel
    else pure done

/-- Does a line of a block start here? -/
def atBlockLine (indent : Nat) : Scan Bool := do
  let c ← get
  pure (c.column == indent && c.peek.val != 0)

/-- The lines of a block after those in `done`, which are held last first, and the empty lines in
`breaks`; with them go the end of the last line and the empty lines after it. -/
def blockLines (folded : Bool) (indent : Nat) (done : List Text) (breaks : Text) :
    Nat → Scan (Text × Text × Text)
  | 0 => malformed
  | fuel + 1 => do
    if !(← atBlockLine indent) then pure (done.reverse.flatten, [], breaks)
    else do
      let startsBlank := isBlankOrTab (← peek)
      let line ← takeWhile (!isLineEnd ·)
      let done := (breaks ++ line) :: done
      let lineEnd ← lineBreak
      blanksUpTo indent
      let breaks ← emptyLines indent [] (← bound)
      if ← atBlockLine indent then
        let joint : Text :=
          if folded && lineEnd = "\n" && !startsBlank && !isBlankOrTab (← peek) then
            (if breaks.isEmpty then " " else [])
          else lineEnd
        blockLines folded indent (joint :: done) breaks fuel
      else pure (done.reverse.flatten, lineEnd, breaks)

/-- The text of a block inside a node whose lines start after column `parent`. -/
def block (folded : Bool) (parent : Int) : Scan Text := do
  skip
  let (chomping, increment) ← blockSigns
  ignoredLine
  let least := (max (parent + 1) 1).toNat
  let (indent, breaks) ←
    match increment with
    | some n => do
      let indent := least + n - 1
      blanksUpTo indent
      pure (indent, ← emptyLines indent [] (← bound))
    | none => do
      let (breaks, column) ← leadingLines [] 0 (← bound)
      pure (max least column, breaks)
  let (lines, lineEnd, breaks) ← blockLines folded indent [] breaks (← bound)
  pure
    (match chomping with
    | .strip => lines
    | .clip => lines ++ lineEnd
    | .keep => lines ++ lineEnd ++ breaks)

/-! ## Quoted texts -/

/-- The escapes of one letter. -/
def shortEscape? (c : CodePoint) : Option CodePoint :=
  let table : List (CodePoint × Nat) := [
    (.ofChar '0', 0x00), (.ofChar 'a', 0x07), (.ofChar 'b', 0x08), (.ofChar 't', 0x09),
    (.ofChar '\t', 0x09), (.ofChar 'n', 0x0A), (.ofChar 'v', 0x0B), (.ofChar 'f', 0x0C),
    (.ofChar 'r', 0x0D), (.ofChar 'e', 0x1B), (.ofChar ' ', 0x20), (.ofChar '"', 0x22),
    (.ofChar '\\', 0x5C), (.ofChar '/', 0x2F), (.ofChar 'N', 0x85), (.ofChar '_', 0xA0),
    (.ofChar 'L', 0x2028), (.ofChar 'P', 0x2029)]
  (table.lookup c).map CodePoint.ofNat

/-- The number of digits after the letter of an escape by number. -/
def escapeDigits? (c : CodePoint) : Option Nat :=
  if c = .ofChar 'x' then some 2
  else if c = .ofChar 'u' then some 4
  else if c = .ofChar 'U' then some 8
  else none

/-- The code point that `n` hexadecimal digits name. -/
def numbered (n : Nat) : Scan CodePoint := do
  need n
  let ds := (← get).rest.take n
  match if ds.length = n then hexNumber? ds else none with
  | none => malformed
  | some code =>
    if code < 0x110000 then do
      skip n
      pure (.ofNat code)
    else throw (.codePoint (code > 0x7FFFFFFF))

/-- The line ends after a first one inside a quoted text, and blanks between them. No line may
separate documents. -/
def quotedBreaks (done : Text) : Nat → Scan Text
  | 0 => malformed
  | fuel + 1 => do
    if (← get).atSeparator then malformed
    else do
      let _ ← takeWhile isBlankOrTab
      if isBreak (← peek) then do
        let b ← lineBreak
        quotedBreaks (done ++ b) fuel
      else pure done

/-- What an escape stands for, after its backslash. -/
def escape : Scan Text := do
  let c ← peek
  match shortEscape? c, escapeDigits? c with
  | some e, _ => do
    skip
    pure [e]
  | none, some n => do
    skip
    pure [← numbered n]
  | none, none =>
    if isBreak c then do
      let _ ← lineBreak
      quotedBreaks [] (← bound)
    else malformed

/-- Blanks inside a quoted text, folded if the line ends there. -/
def quotedBlanks : Scan Text := do
  let ws ← takeWhile isBlankOrTab
  let c ← peek
  if c.val = 0 then malformed
  else if isBreak c then do
    let lineEnd ← lineBreak
    pure (fold lineEnd (← quotedBreaks [] (← bound)))
  else pure ws

/-- The rest of a quoted text up to its closing mark, after the pieces in `done`, which are held
last first. -/
def quotedRest (double : Bool) (done : List Text) : Nat → Scan Text
  | 0 => malformed
  | fuel + 1 => do
    let c ← peek
    let quote : CodePoint := .ofChar (if double then '"' else '\'')
    if c = quote then
      if !double && (← peek 1) = quote then do
        skip 2
        quotedRest double ([quote] :: done) fuel
      else do
        skip
        pure done.reverse.flatten
    else if double && c = .ofChar '\\' then do
      skip
      let e ← escape
      quotedRest double (e :: done) fuel
    else if isGap c then do
      let ws ← quotedBlanks
      quotedRest double (ws :: done) fuel
    else do
      let t ← takeWhile fun c => c ≠ quote && !(double && c = .ofChar '\\') && !isGap c
      quotedRest double (t :: done) fuel

/-- A quoted text. -/
def quoted (double : Bool) : Scan Text := do
  skip
  quotedRest double [] (← bound)

/-! ## Plain texts -/

/-- Does a plain text end before the code points of a place? -/
def endsPlain (inFlow : Bool) (c next : CodePoint) : Bool :=
  isGap c
    || (c = .ofChar ':' && (isGap next || (inFlow && isOneOf ",[]\x7b\x7d" next)))
    || (inFlow && isOneOf ",?[]\x7b\x7d" c)

/-- The code points of a plain text up to a blank or its end. -/
def plainPiece (inFlow : Bool) : Text → Text
  | [] => []
  | c :: rest => if endsPlain inFlow c (rest.headD 0) then [] else c :: plainPiece inFlow rest

/-- The further line ends between the lines of a plain text; none if a line separates
documents. -/
def plainBreaks (done : Text) : Nat → Scan (Option Text)
  | 0 => malformed
  | fuel + 1 => do
    let c ← peek
    if isBlank c then do
      skip
      plainBreaks done fuel
    else if isBreak c then do
      let b ← lineBreak
      if (← get).atSeparator then pure none else plainBreaks (done ++ b) fuel
    else pure (some done)

/-- Blanks between pieces of a plain text, folded if the line ends there, and whether it does. -/
def plainBlanks : Scan (Text × Bool) := do
  let ws ← takeWhile isBlank
  if isBreak (← peek) then do
    let lineEnd ← lineBreak
    if (← get).atSeparator then pure ([], true)
    else
      match ← plainBreaks [] (← bound) with
      | some further => pure (fold lineEnd further, true)
      | none => pure ([], true)
  else pure (ws, false)

/-- The rest of a plain text after the pieces in `done`, which are held last first, and the blanks
`between`, with whether the place after it begins a line. -/
def plainRest (inFlow : Bool) (indent : Nat) (done : List Text) (between : Text) (newLine : Bool) :
    Nat → Scan (Text × Bool)
  | 0 => malformed
  | fuel + 1 => do
    let c ← get
    let piece := if c.peek = .ofChar '#' then [] else plainPiece inFlow c.rest
    if piece.isEmpty then pure (done.reverse.flatten, newLine)
    else do
      skip piece.length
      let done := (between ++ piece) :: done
      let (between, newLine) ← plainBlanks
      let c ← get
      if between.isEmpty || c.peek = .ofChar '#' || (!inFlow && c.column < indent) then
        pure (done.reverse.flatten, newLine)
      else plainRest inFlow indent done between newLine fuel

/-- A plain text whose lines start at a column, and whether the place after it begins a line. -/
def plain (inFlow : Bool) (indent : Nat) : Scan (Text × Bool) := do
  plainRest inFlow indent [] [] false (← bound)

end JndiScan.Yaml.ScalarText
