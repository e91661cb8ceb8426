/-
Texts and octet strings between quotation marks, as messages show them. Apostrophes enclose the
text unless it holds an apostrophe and no double quote. Inside, the chosen mark and the backslash
are escaped, and what would not show is written by its number.
-/
import JndiScan.Text.Printable

namespace JndiScan.Text.Quoted

/-- The mark that encloses a text: an apostrophe, unless the text holds one and no double quote. -/
def mark (t : Text) : CodePoint :=
  if t.contains (.ofChar '\'') && !t.contains (.ofChar '"') then '"'
  else '\''

/-- The short escapes: backslash, tab, line feed, carriage return, and the enclosing mark. -/
def shortEscape? (q c : CodePoint) : Option Text :=
  if c = q || c = (.ofChar '\\') then some [.ofChar '\\', c]
  else if c = (.ofChar '\t') then some "\\t"
  else if c = (.ofChar '\n') then some "\\n"
  else if c = (.ofChar '\r') then some "\\r"
  else none

/-- A code point by its number, in two, four or eight hexadecimal digits. -/
def numbered (c : CodePoint) : Text :=
  if c.val < 0x100 then "\\x" ++ hex 2 c.val
  else if c.val < 0x10000 then "\\u" ++ hex 4 c.val
  else "\\U" ++ hex 8 c.val

/-- One code point of a quoted text. -/
def escape (q c : CodePoint) : Text :=
  (shortEscape? q c).getD (if isPrintable c then [c] else numbered c)

/-- One octet of a quoted octet string: only ASCII shows. -/
def escapeOctet (q : CodePoint) (b : UInt8) : Text :=
  let c := CodePoint.ofOctet b
  (shortEscape? q c).getD (if 0x20 ≤ b && b < 0x7F then [c] else numbered c)

end Quoted

/-- A text between quotation marks. -/
def quoted (t : Text) : Text :=
  let q := Quoted.mark t
  [q] ++ t.flatMap (Quoted.escape q) ++ [q]

/-- An octet string between quotation marks, with a b in front. -/
def quotedOctets (bs : List UInt8) : Text :=
  let q := Quoted.mark (bs.map CodePoint.ofOctet)
  "b" ++ [q] ++ bs.flatMap (Quoted.escapeOctet q) ++ [q]

end JndiScan.Text
