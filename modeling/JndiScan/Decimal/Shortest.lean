/-
The fewest decimal digits that identify a value of the 64-bit binary format: those of the decimal
that lies among the reals nearest to the value, has the fewest digits, and of these is nearest.
-/
import JndiScan.Decimal.Real64

namespace JndiScan.Decimal

/-- The reals that round to `m * 2 ^ e`, and the value itself, in units of `1 / scale`. -/
structure Interval where
  low : Nat
  value : Nat
  high : Nat
  scale : Nat
  /-- Do the ends round to the value? They do when the significand is even. -/
  closed : Bool

/-- The interval of a value. Below a power of two the neighbours are half as far away. -/
def Interval.of (m : Nat) (e : Int) : Interval :=
  let lowGap := if m = Nat.pow 2 52 && e > Real64.minExponent then 1 else 2
  let (up, scale) : Nat × Nat :=
    if e < 0 then (1, 4 * Nat.pow 2 e.natAbs) else (Nat.pow 2 e.natAbs, 4)
  { low := (4 * m - lowGap) * up, value := 4 * m * up, high := (4 * m + 2) * up, scale,
    closed := m % 2 == 0 }

/-- Does a number, in the units of the interval times `den`, lie in the interval? -/
def Interval.holds (iv : Interval) (num den : Nat) : Bool :=
  let low := iv.low * den
  let high := iv.high * den
  if iv.closed then low ≤ num && num ≤ high else low < num && num < high

/-- A decimal `digits * 10 ^ exponent`. -/
structure Digits where
  digits : Nat
  exponent : Int
  deriving DecidableEq, Repr

/-- The decimal with step `10 ^ exponent` that lies in the interval and is nearest to the value. -/
def onGrid? (iv : Interval) (exponent : Int) : Option Digits :=
  -- `k` grid steps are `k * step / den` units
  let (step, den) : Nat × Nat :=
    if exponent < 0 then (iv.scale, Nat.pow 10 exponent.natAbs)
    else (iv.scale * Nat.pow 10 exponent.natAbs, 1)
  let k := iv.value * den / step
  let below := iv.holds (k * step) den
  let above := iv.holds ((k + 1) * step) den
  let twice := 2 * (iv.value * den)
  let middle := (2 * k + 1) * step
  if below && above then
    if twice < middle || (twice == middle && k % 2 == 0) then some ⟨k, exponent⟩
    else some ⟨k + 1, exponent⟩
  else if below then some ⟨k, exponent⟩
  else if above then some ⟨k + 1, exponent⟩
  else none

/-- The first hit on the grids from `exponent` downwards, `fuel` of them at most. -/
def firstHit (iv : Interval) (exponent : Int) : Nat → Digits
  | 0 => ⟨0, 0⟩
  | fuel + 1 =>
    match onGrid? iv exponent with
    | some d => if d.digits = 0 then firstHit iv (exponent - 1) fuel else d
    | none => firstHit iv (exponent - 1) fuel

/-- The decimal exponent of the leading digit of `value / scale`, or one more. -/
def leadingExponent (iv : Interval) : Int :=
  if iv.value ≥ iv.scale then ((Nat.toDigits 10 (iv.value / iv.scale)).length : Int)
  else 1 - ((Nat.toDigits 10 (iv.scale / (iv.value + 1))).length : Int) + 1

/-- The fewest digits of a value other than zero. Twenty grids below the leading digit always
hold a hit, as seventeen digits identify every value. -/
def shortest (m : Nat) (e : Int) : Digits :=
  let iv := Interval.of m e
  firstHit iv (leadingExponent iv) 22

end JndiScan.Decimal
