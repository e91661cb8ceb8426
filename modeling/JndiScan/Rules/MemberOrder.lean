/-
The order in which the members of a set are shown. A set of numbers holds them in a table with room
for more than twice as many, each at a place that follows from its amount or, when that is taken,
at one that is tried after it. Other sets show their members as they are written.
-/
import JndiScan.Rules.Value

namespace JndiScan.Value

/-- Amounts are placed by their remainder for this divisor, a prime. -/
def placingModulus : Nat := Nat.pow 2 61 - 1

/-- What an infinite amount is placed by. -/
def infinitePlacing : Nat := 314159

/-- What a number is placed by; minus one, which is kept free, counts as minus two. A power of two
depends on its exponent only up to multiples of 61. -/
def placing? (v : Value) : Option Int :=
  let amount? : Option (Bool × Nat) :=
    match v with
    | bool b => some (false, if b then 1 else 0)
    | int i => some (i < 0, i.natAbs % placingModulus)
    | real (.finite negative m e) => some (negative, m * Nat.pow 2 (e % 61).toNat % placingModulus)
    | real (.infinite negative) => some (negative, infinitePlacing)
    | _ => none
  amount?.map fun (negative, n) => if !negative then (n : Int) else if n = 1 then -2 else -(n : Int)

/-- The number of places for `count` members: a power of two. -/
def tableSize (count : Nat) : Nat := if count < 5 then 8 else Nat.pow 2 (Nat.log2 (2 * count) + 1)

/-- How many places in a row after the first one are tried. -/
def rowLength : Nat := 9

/-- The first free place of those that are tried from one on. When a row of places is taken, the
next row starts at a place that depends on more and more of the number in `rest`. -/
def freePlace (table : Array (Option Value)) (place rest : Nat) : (fuel : Nat) → Nat
  | 0 => place
  | fuel + 1 =>
    let row := if place + rowLength < table.size then rowLength + 1 else 1
    match (List.range' place row).find? fun p => (table.getD p none).isNone with
    | some p => p
    | none => freePlace table ((place * 5 + 1 + rest / 32) % table.size) (rest / 32) fuel

/-- A table with a member put in, with what it is placed by. Negative numbers count as those of 64
bits that end in the same bits. -/
def place (table : Array (Option Value)) (member : Value × Int) : Array (Option Value) :=
  let n := (member.2 % 0x10000000000000000).toNat
  let p := freePlace table (n % table.size) n (table.size + 64)
  table.setIfInBounds p (some member.1)

/-- The members of a set in the order in which they are shown. -/
def inMemberOrder (members : List Value) : List Value :=
  match members.mapM fun v => v.placing?.map (v, ·) with
  | some placed =>
    let table := placed.foldl place (Array.replicate (tableSize members.length) none)
    table.toList.filterMap id
  | none => members

end JndiScan.Value
