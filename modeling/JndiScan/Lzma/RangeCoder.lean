/-
The range coder of LZMA data. Every bit is read against how likely it is to be zero, which changes
with each bit that is read. A decompression that runs out of octets stops where it is; what it
produced before is kept.
-/
import JndiScan.Text.Basic

namespace JndiScan.Lzma

/-- What is wrong with LZMA data. -/
inductive Fault
  | options
  | corrupt
  deriving DecidableEq, Repr

/-- The wording of a fault. -/
def Fault.message : Fault → Text
  | options => "Invalid or unsupported options"
  | corrupt => "Corrupt input data"

/-- Why a decompression did not end: there are no more octets, or a fault. -/
inductive Stop
  | starved
  | faulty (fault : Fault)
  deriving DecidableEq, Repr

/-- The state of a decompression. `odds` tells for each kind of bit how likely it is zero, in parts
of 2048. -/
structure Stream where
  input : ByteArray
  position : Nat := 0
  range : UInt32 := 0xFFFFFFFF
  code : UInt32 := 0
  odds : Array UInt32
  output : ByteArray := .empty

namespace Stream

/-- A bit of a kind, from a range that is large enough. -/
def takeBit (s : Stream) (kind : Nat) : Nat × Stream :=
  let odds := s.odds.getD kind 0
  let bound := (s.range >>> 11) * odds
  if s.code < bound then
    (0, { s with range := bound, odds := s.odds.setIfInBounds kind (odds + (2048 - odds) >>> 5) })
  else
    (1, { s with
      range := s.range - bound, code := s.code - bound
      odds := s.odds.setIfInBounds kind (odds - odds >>> 5) })

/-- A bit that is as likely zero as one. A code below the range goes below zero. -/
def takePlainBit (s : Stream) : Nat × Stream :=
  let range := s.range >>> 1
  let code := s.code - range
  if code >>> 31 = 1 then (0, { s with range }) else (1, { s with range, code })

end Stream

/-- A step of a decompression. -/
abbrev Decompress := EStateM Stop Stream

namespace Decompress

/-- Ends the decompression as corrupt. -/
def corrupt : Decompress α := throw (.faulty .corrupt)

/-- Takes an octet into the code. -/
def takeOctet : Decompress Unit := fun s =>
  if s.position < s.input.size then
    let octet := (s.input.get! s.position).toUInt32
    .ok () { s with position := s.position + 1, code := s.code <<< 8 ||| octet }
  else .error .starved s

/-- Takes an octet when the range has become small. -/
def normalize : Decompress Unit := do
  if (← get).range < 0x1000000 then
    takeOctet
    modify fun s => { s with range := s.range <<< 8 }

/-- A bit of a kind. -/
def bit (kind : Nat) : Decompress Nat := do
  normalize
  modifyGet (·.takeBit kind)

/-- Reads `n` more bits of a tree of kinds, the highest first, after those that `node` tells. -/
def treeFrom (kind node : Nat) : Nat → Decompress Nat
  | 0 => pure node
  | n + 1 => do treeFrom kind (2 * node + (← bit (kind + node))) n

/-- A number of `n` bits by a tree of kinds. -/
def tree (kind n : Nat) : Decompress Nat := do
  pure ((← treeFrom kind 1 n) - Nat.pow 2 n)

/-- A number of bits by a tree of kinds, the lowest first: `weight` is that of the next bit. -/
def reverseTreeFrom (kind node weight value : Nat) : Nat → Decompress Nat
  | 0 => pure value
  | n + 1 => do
    let b ← bit (kind + node)
    reverseTreeFrom kind (2 * node + b) (2 * weight) (value + b * weight) n

/-- A number of `n` bits by a tree of kinds, the lowest first. -/
def reverseTree (kind n : Nat) : Decompress Nat := reverseTreeFrom kind 1 1 0 n

/-- Reads `n` more bits that are as likely zero as one, after those of `value`. -/
def plainFrom (value : Nat) : Nat → Decompress Nat
  | 0 => pure value
  | n + 1 => do
    normalize
    let b ← modifyGet Stream.takePlainBit
    plainFrom (2 * value + b) n

end Decompress

end JndiScan.Lzma
