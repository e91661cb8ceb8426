/-
The state of a decompression of bzip2 data: the compressed octets, how many of their bits were
read, and the octets produced. Bits are read from the most significant one of each octet on. A
decompression that runs out of bits stops where it is; the blocks before are kept.
-/
import JndiScan.Text.Basic

namespace JndiScan.Bzip2

/-- What is wrong with compressed data. -/
inductive Fault
  | corrupt
  deriving DecidableEq, Repr

/-- The wording of a fault. -/
def Fault.message : Fault → Text
  | corrupt => "Invalid data stream"

/-- Why a step of a decompression did not end: there are no more bits, or a fault. -/
inductive Stop
  | starved
  | faulty (fault : Fault)
  deriving DecidableEq, Repr

/-- The state of a decompression. -/
structure Stream where
  input : ByteArray
  position : Nat := 0
  output : ByteArray := .empty

/-- The number of bits of the input. -/
def Stream.bitCount (s : Stream) : Nat := 8 * s.input.size

/-- Is every octet of the input taken? -/
def Stream.isTaken (s : Stream) : Bool := s.input.size ≤ (s.position + 7) / 8

/-- A step of a decompression. -/
abbrev Expand := EStateM Stop Stream

namespace Expand

/-- Ends the decompression as corrupt. -/
def corrupt : Expand α := throw (.faulty .corrupt)

/-- One bit. -/
def bit : Expand Nat := fun s =>
  if s.position < s.bitCount then
    let octet := (s.input.get! (s.position / 8)).toNat
    .ok (octet / Nat.pow 2 (7 - s.position % 8) % 2) { s with position := s.position + 1 }
  else .error .starved s

/-- Reads `n` more bits of a number, after those that `value` tells. -/
def bitsFrom (value : Nat) : Nat → Expand Nat
  | 0 => pure value
  | n + 1 => do bitsFrom (2 * value + (← bit)) n

/-- A number of `n` bits, the most significant first. -/
def bits (n : Nat) : Expand Nat := bitsFrom 0 n

/-- Reads octets that have to be there. -/
def expect : List Nat → Expand Unit
  | [] => pure ()
  | b :: bs => do
    if (← bits 8) = b then expect bs else corrupt

/-- As many flags as a number tells. -/
def flags : Nat → Expand (List Bool)
  | 0 => pure []
  | n + 1 => do
    let flag := (← bit) = 1
    pure (flag :: (← flags n))

end Expand

end JndiScan.Bzip2
