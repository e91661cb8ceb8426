/-
Numbers with a fraction, as a rules file may hold them: the values of the 64-bit binary format.
A decimal is rounded to the nearest of them, of two equally near ones to the even one, and sums
and products are rounded in the same way.
-/
namespace JndiScan

/-- A value of the 64-bit binary format. A finite one is `significand * 2 ^ exponent`; the
significand is below 2^53, and below 2^52 only with the least exponent. -/
inductive Real64
  | finite (negative : Bool) (significand : Nat) (exponent : Int)
  | infinite (negative : Bool)
  | nan
  deriving DecidableEq, Repr

namespace Real64

/-- The least exponent. -/
def minExponent : Int := -1074

/-- The largest exponent. -/
def maxExponent : Int := 971

/-- The quotient rounded to the nearest whole number, a half to the even neighbour. -/
def roundDiv (num den : Nat) : Nat :=
  let q := num / den
  let r := num % den
  if 2 * r > den || (2 * r == den && q % 2 == 1) then q + 1 else q

/-- `num / den * 2 ^ (-exponent)` rounded to a whole number. -/
def scaled (num den : Nat) (exponent : Int) : Nat :=
  if exponent < 0 then roundDiv (num * Nat.pow 2 exponent.natAbs) den
  else roundDiv num (den * Nat.pow 2 exponent.natAbs)

/-- The value with a given significand and exponent, when it is not too large. -/
def pack (negative : Bool) (significand : Nat) (exponent : Int) : Real64 :=
  let (m, e) :=
    if significand = Nat.pow 2 53 then (Nat.pow 2 52, exponent + 1) else (significand, exponent)
  if e > maxExponent then infinite negative else finite negative m e

/-- The value nearest to the quotient of two whole numbers, the second of which is not zero. -/
def ofRatio (negative : Bool) (num den : Nat) : Real64 :=
  if num = 0 then finite negative 0 minExponent
  else
    let guess : Int := (num.log2 : Int) - den.log2 - 53
    let low := max minExponent guess
    let m := scaled num den low
    if m ≤ Nat.pow 2 53 then pack negative m low
    else pack negative (scaled num den (low + 1)) (low + 1)

/-- The value nearest to `digits * 10 ^ exponent`. Magnitudes far outside the format are settled
by the number of digits alone. -/
def ofDecimal (negative : Bool) (digits : Nat) (exponent : Int) : Real64 :=
  let magnitude : Int := (Nat.toDigits 10 digits).length + exponent
  if digits = 0 || magnitude < -400 then finite negative 0 minExponent
  else if magnitude > 400 then infinite negative
  else if exponent < 0 then ofRatio negative digits (Nat.pow 10 exponent.natAbs)
  else ofRatio negative (digits * Nat.pow 10 exponent.natAbs) 1

/-- The value of a whole number. -/
def ofNat (n : Nat) : Real64 := ofRatio false n 1

/-- The magnitude as a quotient. -/
def ratio (significand : Nat) (exponent : Int) : Nat × Nat :=
  if exponent < 0 then (significand, Nat.pow 2 exponent.natAbs)
  else (significand * Nat.pow 2 exponent.natAbs, 1)

/-- A magnitude with its sign. -/
def withSign (negative : Bool) (n : Nat) : Int := if negative then -(n : Int) else n

/-- The sum of two values, rounded. Nothing is the sum of opposite infinities, and a sum of zero is
negative only if both values are. -/
def add : Real64 → Real64 → Real64
  | nan, _ | _, nan => nan
  | infinite n, infinite n' => if n = n' then infinite n else nan
  | infinite n, finite .. | finite .., infinite n => infinite n
  | finite n m e, finite n' m' e' =>
    let (a, b) := ratio m e
    let (c, d) := ratio m' e'
    let sum := withSign n (a * d) + withSign n' (c * b)
    if sum = 0 then finite (n && n') 0 minExponent
    else ofRatio (decide (sum < 0)) sum.natAbs (b * d)

/-- The product of two values, rounded. Nothing is the product of zero and an infinity. -/
def mul : Real64 → Real64 → Real64
  | nan, _ | _, nan => nan
  | infinite n, infinite n' => infinite (n ^^ n')
  | infinite n, finite n' m _ | finite n' m _, infinite n =>
    if m = 0 then nan else infinite (n ^^ n')
  | finite n m e, finite n' m' e' =>
    let (a, b) := ratio m e
    let (c, d) := ratio m' e'
    ofRatio (n ^^ n') (a * c) (b * d)

/-- The value with the opposite sign. -/
def neg : Real64 → Real64
  | finite n m e => finite (!n) m e
  | infinite n => infinite (!n)
  | nan => nan

/-- Is the value zero? -/
def isZero : Real64 → Bool
  | finite _ m _ => m == 0
  | _ => false

end Real64

end JndiScan
