/-
JSON written over several lines, with two blanks of indentation for each level. The text is ASCII:
every other code point is written by its number, in two halves when it has more than four
hexadecimal digits.
-/
import JndiScan.Json.Basic

namespace JndiScan.Json

/-- A code point by its number, or as the two halves of a surrogate pair. -/
def numbered (c : CodePoint) : Text :=
  if c.val < 0x10000 then "\\u" ++ Text.hex 4 c.val
  else
    let n := c.val - 0x10000
    "\\u" ++ Text.hex 4 (0xD800 + n / 0x400) ++ "\\u" ++ Text.hex 4 (0xDC00 + n % 0x400)

/-- A code point inside quotation marks. -/
def escape (c : CodePoint) : Text :=
  if c = .ofChar '"' then "\\\""
  else if c = .ofChar '\\' then "\\\\"
  else if c = .ofChar '\n' then "\\n"
  else if c = .ofChar '\r' then "\\r"
  else if c = .ofChar '\t' then "\\t"
  else if c.val = 0x08 then "\\b"
  else if c.val = 0x0C then "\\f"
  else if 0x20 ≤ c.val && c.val ≤ 0x7E then [c]
  else numbered c

/-- A text between quotation marks. -/
def writeText (t : Text) : Text := "\"" ++ t.flatMap escape ++ "\""

/-- The start of a line at a level. -/
def newLine (level : Nat) : Text := .ofChar '\n' :: Text.copies (2 * level) (.ofChar ' ')

mutual

/-- A value at a level of indentation. -/
def writeAt (level : Nat) : Json → Text
  | null => "null"
  | bool b => if b then "true" else "false"
  | int i => .ofInt i
  | decimal negative digits exponent =>
    (if negative then ("-" : Text) else []) ++ .ofNat digits ++ "e" ++ .ofInt exponent
  | text t => writeText t
  | list [] => "[]"
  | list (item :: items) =>
    "[" ++ newLine (level + 1) ++ writeAt (level + 1) item ++ writeItems (level + 1) items
      ++ newLine level ++ "]"
  | object [] => "\x7b\x7d"
  | object ((key, value) :: fields) =>
    "\x7b" ++ newLine (level + 1) ++ writeText key ++ ": " ++ writeAt (level + 1) value
      ++ writeFields (level + 1) fields ++ newLine level ++ "\x7d"

/-- The items after the first. -/
def writeItems (level : Nat) : List Json → Text
  | [] => []
  | item :: items => "," ++ newLine level ++ writeAt level item ++ writeItems level items

/-- The fields after the first. -/
def writeFields (level : Nat) : List (Text × Json) → Text
  | [] => []
  | (key, value) :: fields =>
    "," ++ newLine level ++ writeText key ++ ": " ++ writeAt level value
      ++ writeFields level fields

end

/-- A value as a text of its own. -/
def write (j : Json) : Text := writeAt 0 j

end JndiScan.Json
