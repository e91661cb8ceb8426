/-
Blank code points and what is cut at them. Blanks are the white space of all scripts, with the
separators of files, groups, records and units among the controls.
-/
import JndiScan.Text.Basic

namespace JndiScan.Text

/-- White space, in the sense in which names are trimmed and descriptors cleaned of it. -/
def isBlank (c : CodePoint) : Bool :=
  let n := c.val
  (0x09 ≤ n && n ≤ 0x0D) || (0x1C ≤ n && n ≤ 0x20) || n == 0x85 || n == 0xA0 || n == 0x1680
    || (0x2000 ≤ n && n ≤ 0x200A) || n == 0x2028 || n == 0x2029 || n == 0x202F || n == 0x205F
    || n == 0x3000

/-- The text without what satisfies `p` at either end. -/
def trimWhere (p : CodePoint → Bool) (t : Text) : Text :=
  ((t.dropWhile p).reverse.dropWhile p).reverse

/-- The text without blanks at either end. -/
def trim (t : Text) : Text := trimWhere isBlank t

/-- The text without any blank. -/
def squeeze (t : Text) : Text := t.filter fun c => !isBlank c

/-- Collects the words of a text; `word` is the word being read, last code point first. -/
def wordsFrom (word : Text) : Text → List Text
  | [] => if word.isEmpty then [] else [word.reverse]
  | c :: rest =>
    if isBlank c then
      if word.isEmpty then wordsFrom [] rest else word.reverse :: wordsFrom [] rest
    else wordsFrom (c :: word) rest

/-- The runs of code points between blanks. -/
def words (t : Text) : List Text := wordsFrom [] t

end JndiScan.Text
