/-
How a number with a fraction is written: with its fewest digits, positionally while the leading
digit stands from the fourth place behind the point to the sixteenth before it, and otherwise with
an exponent of at least two digits.
-/
import JndiScan.Decimal.Shortest
import JndiScan.Text.Basic

namespace JndiScan.Decimal

/-- The decisions of a way of writing. -/
structure Style where
  /-- The least exponent of the leading digit that is written positionally. -/
  leastPositional : Int
  /-- The first exponent of the leading digit that is not written positionally. -/
  endPositional : Int
  /-- The least number of digits of an exponent. -/
  exponentWidth : Nat
  infinity : Text
  notANumber : Text

/-- The way of writing of all messages. -/
def plainStyle : Style :=
  { leastPositional := -4, endPositional := 16, exponentWidth := 2, infinity := "inf",
    notANumber := "nan" }

/-- The digits of a decimal without zeros at the end, and the exponent of the first of them. -/
def leadingForm (d : Digits) : Text × Int :=
  let ds := Text.ofNat d.digits
  ((ds.reverse.dropWhile (· = .ofChar '0')).reverse, d.exponent + ds.length - 1)

/-- The digits laid out for a leading digit of a given exponent. -/
def layout (n : Style) (ds : Text) (leading : Int) : Text :=
  if n.leastPositional ≤ leading && leading < n.endPositional then
    if leading < 0 then
      "0." ++ Text.copies (leading.natAbs - 1) (.ofChar '0') ++ ds
    else
      let whole := leading.natAbs + 1
      let front := ds.take whole ++ Text.copies (whole - ds.length) (.ofChar '0')
      let back : Text := ds.drop whole
      front ++ "." ++ (if back.isEmpty then ("0" : Text) else back)
  else
    let digits := Text.ofNat leading.natAbs
    let exponent := Text.copies (n.exponentWidth - digits.length) (.ofChar '0') ++ digits
    let sign : Text := if leading < 0 then "-" else "+"
    let point : Text := if ds.length > 1 then "." ++ ds.drop 1 else []
    ds.take 1 ++ point ++ "e" ++ sign ++ exponent

/-- A value as it is written. -/
def render (n : Style) : Real64 → Text
  | .nan => n.notANumber
  | .infinite negative => (if negative then ("-" : Text) else []) ++ n.infinity
  | .finite negative m e =>
    let sign : Text := if negative then "-" else []
    if m = 0 then sign ++ "0.0"
    else
      let (ds, leading) := leadingForm (shortest m e)
      sign ++ layout n ds leading

end JndiScan.Decimal
