/-
The checksum of archive members: the remainder of a division by the polynomial of IEEE 802.3, with
the bits of each octet taken from the least significant one on.
-/
import JndiScan.Bytes

namespace JndiScan.Crc32

/-- The polynomial, least significant bit for the highest power. -/
def polynomial : UInt32 := 0xEDB88320

/-- `n` bits of the division. -/
def shiftBits (r : UInt32) : Nat → UInt32
  | 0 => r
  | n + 1 => shiftBits (if r &&& 1 = 1 then (r >>> 1) ^^^ polynomial else r >>> 1) n

/-- The remainders of all octets. -/
def table : Array UInt32 := (Array.range 256).map fun n => shiftBits n.toUInt32 8

/-- The remainder after one more octet. -/
def step (r : UInt32) (b : UInt8) : UInt32 :=
  (r >>> 8) ^^^ table.getD ((r ^^^ b.toUInt32) &&& 0xFF).toNat 0

/-- The checksum of octets. -/
def ofBytes (bs : Bytes) : UInt32 := bs.foldl step 0xFFFFFFFF ^^^ 0xFFFFFFFF

end JndiScan.Crc32
