/-
The checksum of Dalvik files: two sums modulo the largest prime below 2^16.
-/
import JndiScan.Bytes

namespace JndiScan.Adler32

/-- The modulus. -/
def modulus : Nat := 65521

/-- The sums after one more octet. -/
def step (s : Nat × Nat) (b : UInt8) : Nat × Nat :=
  let low := (s.1 + b.toNat) % modulus
  (low, (s.2 + low) % modulus)

/-- The checksum of octets. -/
def ofBytes (bs : Bytes) : Nat :=
  let (low, high) := bs.foldl step (1, 0)
  high * 65536 + low

end JndiScan.Adler32
