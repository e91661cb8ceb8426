/-
What may stand before a node or a document: names of anchors, tags, and directives.
-/
import JndiScan.Text.Digit
import JndiScan.Yaml.Cursor

namespace JndiScan.Yaml

/-- A line that tells something about the document after it. -/
inductive Directive
  | version (major : Nat)
  | tagHandle (handle expansion : Text)
  | other
  deriving DecidableEq, Repr

namespace Property

open Scan

/-- A name of at least one part. -/
def name : Scan Text := do
  let t ← takeWhile isNamePart
  if t.isEmpty then malformed else pure t

/-- What may follow the name of an anchor directly. -/
def endsAnchor (c : CodePoint) : Bool := isGap c || isOneOf "?:,]\x7d%@`" c

/-- The name after the sign of an anchor or of a reference to one. -/
def anchor : Scan Text := do
  skip
  let t ← name
  if endsAnchor (← peek) then pure t else malformed

/-! ## Tags -/

/-- What a tag is made of apart from escapes. -/
def isTagPart (c : CodePoint) : Bool := isNamePart c || isOneOf ";/?:@&=+$,_.!~*'()[]" c

/-- The octets that escapes write. -/
def escapedOctets (done : List UInt8) : Nat → Scan (List UInt8)
  | 0 => malformed
  | fuel + 1 => do
    if (← peek) = .ofChar '%' then do
      skip
      let ds ← take 2
      match if ds.length = 2 then hexNumber? ds else none with
      | some n => escapedOctets (n.toUInt8 :: done) fuel
      | none => malformed
    else pure done.reverse

/-- The rest of a tag after `done`. Escaped octets are read as UTF-8. -/
def tagRest (done : Text) : Nat → Scan Text
  | 0 => malformed
  | fuel + 1 => do
    let t ← takeWhile isTagPart
    if (← peek) = .ofChar '%' then do
      match Text.ofUtf8 .strict (← escapedOctets [] (← bound)) with
      | .ok e => tagRest (done ++ t ++ e) fuel
      | .error _ => malformed
    else pure (done ++ t)

/-- A tag as it is written, of at least one code point. -/
def tagText : Scan Text := do
  let t ← tagRest [] (← bound)
  if t.isEmpty then malformed else pure t

/-- The sign of tags. -/
def sign : CodePoint := .ofChar '!'

/-- The handle that a tag starts with: one sign, or a name between two. -/
def handle : Scan Text := do
  if (← peek) ≠ sign then malformed
  else do
    skip
    if isBlank (← peek) then pure [sign]
    else do
      let t ← takeWhile isNamePart
      if (← peek) = sign then do
        skip
        pure (sign :: t ++ [sign])
      else malformed

/-- A tag: its handle, if it has one, and what follows that. -/
def tag : Scan (Option Text × Text) := do
  let c ← peek 1
  let found ←
    if c = .ofChar '<' then do
      skip 2
      let t ← tagText
      if (← peek) = .ofChar '>' then do
        skip
        pure (none, t)
      else malformed
    else if isGap c then do
      skip
      pure (none, [sign])
    else do
      let word := ((← get).rest.drop 1).takeWhile (!endsWord ·)
      if word.contains sign then do
        let h ← handle
        pure (some h, ← tagText)
      else do
        skip
        pure (some [sign], ← tagText)
  if endsWord (← peek) then pure found else malformed

/-! ## Directives -/

/-- A number of decimal digits, which are limited in number. -/
def number : Scan Nat := do
  let ds ← takeWhile CodePoint.isDigit
  if ds.isEmpty then malformed
  else if ds.length > Text.maxDigits then throw (.longInteger ds.length)
  else pure (ds.foldl (fun n c => 10 * n + (c.val - 0x30)) 0)

/-- The version that a directive tells, of which the first number is kept. -/
def version : Scan Nat := do
  blanks
  let major ← number
  if (← peek) ≠ .ofChar '.' then malformed
  else do
    skip
    let _ ← number
    if endsWord (← peek) then pure major else malformed

/-- The handle that a directive defines, with what it stands for. -/
def tagDefinition : Scan (Text × Text) := do
  blanks
  let h ← handle
  if !isBlank (← peek) then malformed
  else do
    blanks
    let t ← tagText
    if endsWord (← peek) then pure (h, t) else malformed

/-- A directive with its line. -/
def directive : Scan Directive := do
  skip
  let t ← name
  if !endsWord (← peek) then malformed
  else do
    let d ←
      if t = "YAML" then do pure (.version (← version))
      else if t = "TAG" then do
        let (h, e) ← tagDefinition
        pure (.tagHandle h e)
      else do
        restOfLine
        pure .other
    ignoredLine
    pure d

end Property

end JndiScan.Yaml
