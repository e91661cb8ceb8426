/-
The state of a decompression: the compressed octets, how many of their bits were read, and the
octets produced. Bits are read from the least significant one of each octet on. A decompression
that runs out of bits stops where it is; what it produced before is kept.
-/
namespace JndiScan.Deflate

/-- What is wrong with a compressed stream. -/
inductive Fault
  | blockType
  | storedLengths
  | tooManySymbols
  | codeLengthCodes
  | lengthRepeat
  | noEndOfBlock
  | literalCodes
  | distanceCodes
  | literalCode
  | distanceCode
  | distanceTooFar
  deriving DecidableEq, Repr

/-- Why a step of a decompression did not end: there are no more bits, or a fault. -/
inductive Stop
  | starved
  | faulty (fault : Fault)
  deriving DecidableEq, Repr

/-- The state of a decompression. -/
structure Stream where
  input : ByteArray
  position : Nat := 0
  output : ByteArray := .empty

/-- A step of a decompression. -/
abbrev Inflate := EStateM Stop Stream

namespace Inflate

/-- The number of bits of the input. -/
def bitCount (s : Stream) : Nat := 8 * s.input.size

/-- One bit. -/
def bit : Inflate Nat := fun s =>
  if s.position < bitCount s then
    let octet := (s.input.get! (s.position / 8)).toNat
    .ok (octet / Nat.pow 2 (s.position % 8) % 2) { s with position := s.position + 1 }
  else .error .starved s

/-- A number of `n` bits, the least significant first. Without all of them nothing is read. -/
def bits (n : Nat) : Inflate Nat := fun s =>
  if s.position + n ≤ bitCount s then
    let value := (List.range n).foldl (fun v i =>
      let p := s.position + i
      v + (s.input.get! (p / 8)).toNat / Nat.pow 2 (p % 8) % 2 * Nat.pow 2 i) 0
    .ok value { s with position := s.position + n }
  else .error .starved s

/-- Moves on to the next whole octet. -/
def align : Inflate Unit := modify fun s => { s with position := (s.position + 7) / 8 * 8 }

/-- Produces an octet. -/
def emit (b : UInt8) : Inflate Unit := modify fun s => { s with output := s.output.push b }

/-- Ends the decompression with a fault. -/
def fail (fault : Fault) : Inflate α := throw (.faulty fault)

end Inflate

end JndiScan.Deflate
