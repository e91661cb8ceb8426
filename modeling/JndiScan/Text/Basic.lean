/-
Texts as the scanner meets them. Class files and Dalvik files may hold halves of surrogate pairs,
so a text here is a list of code points and not of scalar values, and a string literal is read as
one through a coercion. The operations are the few that names, paths and reports need.
-/
namespace JndiScan

/-- A code point: a number below 0x110000, halves of surrogate pairs included. -/
abbrev CodePoint := Fin 0x110000

/-- A finite sequence of code points. -/
abbrev Text := List CodePoint

namespace CodePoint

/-- The code point of a character. -/
def ofChar (c : Char) : CodePoint :=
  ⟨c.toNat, by
    rcases c.valid with h | h
    · exact Nat.lt_trans h (by decide)
    · exact h.2⟩

instance : Coe Char CodePoint := ⟨ofChar⟩

/-- The code point of an octet. -/
def ofOctet (b : UInt8) : CodePoint := ⟨b.toNat, Nat.lt_trans b.toNat_lt (by decide)⟩

/-- The code point with a given number, or zero when the number is too large. -/
def ofNat (n : Nat) : CodePoint := if h : n < 0x110000 then ⟨n, h⟩ else 0

/-- Half of a surrogate pair. -/
def isSurrogate (c : CodePoint) : Bool := 0xD800 ≤ c.val && c.val ≤ 0xDFFF

/-- An ASCII digit. -/
def isDigit (c : CodePoint) : Bool := 0x30 ≤ c.val && c.val ≤ 0x39

/-- Case is folded as far as a comparison with an ASCII text can tell: the capitals A to Z, and
the Kelvin sign, whose small letter is k. -/
def foldCase (c : CodePoint) : CodePoint :=
  if 0x41 ≤ c.val && c.val ≤ 0x5A then ofNat (c.val + 0x20)
  else if c.val = 0x212A then 'k'
  else c

end CodePoint

namespace Text

/-- The code points of a string. -/
def ofString (s : String) : Text := s.toList.map CodePoint.ofChar

instance : Coe String Text := ⟨ofString⟩

/-- The string with the same code points; a half of a surrogate pair becomes NUL. -/
def toString (t : Text) : String := String.ofList (t.map fun c => Char.ofNat c.val)

/-- Does `t` begin with `start`? -/
def startsWith (t start : Text) : Bool := start.isPrefixOf t

/-- Does `t` end in `tail`? -/
def endsWith (t tail : Text) : Bool := tail.isSuffixOf t

/-- Every occurrence of one code point replaced by another. -/
def replace (t : Text) (old new : CodePoint) : Text := t.map fun c => if c = old then new else c

/-- The text with its case folded. -/
def foldCase (t : Text) : Text := t.map CodePoint.foldCase

/-- The pieces between the occurrences of a separator; there is always at least one. -/
def splitOn (sep : CodePoint) : Text → List Text
  | [] => [[]]
  | c :: rest =>
    if c = sep then [] :: splitOn sep rest
    else
      match splitOn sep rest with
      | [] => [[c]]
      | piece :: pieces => (c :: piece) :: pieces

/-- The lines of a text: a final line end gives a last empty line. -/
def lines (t : Text) : List Text := splitOn '\n' t

/-- The texts written one after the other with a separator between them. -/
def joinWith (sep : Text) (ts : List Text) : Text := List.intercalate sep ts

/-- `n` copies of a code point. -/
def copies (n : Nat) (c : CodePoint) : Text := List.replicate n c

/-- The text followed by blanks up to a width. -/
def padRight (t : Text) (width : Nat) : Text := t ++ copies (width - t.length) ' '

/-- The decimal digits of a number. -/
def ofNat (n : Nat) : Text := (Nat.toDigits 10 n).map CodePoint.ofChar

/-- At least `width` decimal digits of a number. -/
def decimal (width n : Nat) : Text :=
  let digits := ofNat n
  copies (width - digits.length) '0' ++ digits

/-- An integer in decimal, with a sign if it is negative. -/
def ofInt : Int → Text
  | .ofNat n => ofNat n
  | .negSucc n => (.ofChar '-') :: ofNat (n + 1)

/-- At least `width` hexadecimal digits of a number, in small letters. -/
def hex (width n : Nat) : Text :=
  let digits : Text := (Nat.toDigits 16 n).map CodePoint.ofChar
  copies (width - digits.length) '0' ++ digits

/-! ## Order

Texts are compared by code points, first difference first. -/

/-- Is `a` before `b` or equal to it? -/
def le (a b : Text) : Bool := compare a b != .gt

/-- The items in increasing order of their keys; items with one key keep their order. -/
def sortBy (key : α → Text) (xs : List α) : List α := xs.mergeSort fun a b => le (key a) (key b)

end Text

end JndiScan
