/-
Decimal digits of all scripts, which a number on the command line may be written in, and the
reading of such a number: blanks around it, an optional sign, digits with single underscores
between them. The digits of one script are ten consecutive code points.
-/
import JndiScan.Text.Blank

namespace JndiScan.Text

/-- The zeros of the scripts that have decimal digits. -/
def digitZeros : List Nat := [
  0x30, 0x660, 0x6F0, 0x7C0, 0x966, 0x9E6, 0xA66, 0xAE6, 0xB66, 0xBE6, 0xC66, 0xCE6, 0xD66, 0xDE6,
  0xE50, 0xED0, 0xF20, 0x1040, 0x1090, 0x17E0, 0x1810, 0x1946, 0x19D0, 0x1A80, 0x1A90, 0x1B50,
  0x1BB0, 0x1C40, 0x1C50, 0xA620, 0xA8D0, 0xA900, 0xA9D0, 0xA9F0, 0xAA50, 0xABF0, 0xFF10, 0x104A0,
  0x10D30, 0x11066, 0x110F0, 0x11136, 0x111D0, 0x112F0, 0x11450, 0x114D0, 0x11650, 0x116C0, 0x11730,
  0x118E0, 0x11950, 0x11C50, 0x11D50, 0x11DA0, 0x16A60, 0x16AC0, 0x16B50, 0x1D7CE, 0x1D7D8, 0x1D7E2,
  0x1D7EC, 0x1D7F6, 0x1E140, 0x1E2F0, 0x1E950, 0x1FBF0]

/-- The value of a decimal digit of any script. -/
def digitValue? (c : CodePoint) : Option Nat :=
  (digitZeros.find? fun z => z ≤ c.val && c.val ≤ z + 9).map (c.val - ·)

/-- Digits with single underscores between them, read on from `value`. -/
def digitsValue? (value : Nat) : Text → Option Nat
  | [] => some value
  | c :: rest =>
    match digitValue? c with
    | some d => digitsValue? (10 * value + d) rest
    | none =>
      match rest with
      | [] => none
      | c' :: rest' =>
        if c = '_' then
          match digitValue? c' with
          | some d => digitsValue? (10 * value + d) rest'
          | none => none
        else none

/-- A number of at least one digit. -/
def natValue? : Text → Option Nat
  | [] => none
  | c :: rest =>
    match digitValue? c with
    | some d => digitsValue? d rest
    | none => none

/-- The most digits that a number on the command line may have. -/
def maxDigits : Nat := 4300

/-- What may surround a number: blanks other than the four separator controls. -/
def isNumberBlank (c : CodePoint) : Bool := isBlank c && !(0x1C ≤ c.val && c.val ≤ 0x1F)

/-- An integer as the command line writes it. -/
def intValue? (t : Text) : Option Int :=
  let t := trimWhere isNumberBlank t
  if (t.filter fun c => (digitValue? c).isSome).length > maxDigits then none
  else
    match t with
    | [] => none
    | c :: rest =>
      if c = '-' then (natValue? rest).map fun n => -(n : Int)
      else if c = '+' then (natValue? rest).map fun n => (n : Int)
      else (natValue? (c :: rest)).map fun n => (n : Int)

end JndiScan.Text
