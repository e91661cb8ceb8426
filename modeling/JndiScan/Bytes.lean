/-
Octet strings, and the numbers written in them with the most or the least significant octet first.
-/
namespace JndiScan

/-- A finite sequence of octets. -/
abbrev Bytes := List UInt8

namespace Bytes

/-- The number that octets write, most significant first. -/
def bigEndian (bs : Bytes) : Nat := bs.foldl (fun n b => 256 * n + b.toNat) 0

/-- The number that octets write, least significant first. -/
def littleEndian (bs : Bytes) : Nat := bs.foldr (fun b n => 256 * n + b.toNat) 0

/-- A number in two octets, most significant first; higher bits are lost. -/
def word16 (n : Nat) : Bytes := [(n / 256).toUInt8, n.toUInt8]

/-- A number in four octets, most significant first; higher bits are lost. -/
def word32 (n : Nat) : Bytes :=
  [(n / 16777216).toUInt8, (n / 65536).toUInt8, (n / 256).toUInt8, n.toUInt8]

/-- The octets from `start` on, `length` of them or as many as there are. -/
def slice (bs : Bytes) (start length : Nat) : Bytes := (bs.drop start).take length

/-- The number in the `width` octets at `start`, least significant first; the missing octets of a
short string count as nothing. -/
def fieldLE (bs : Bytes) (start width : Nat) : Nat := littleEndian (bs.slice start width)

end Bytes

end JndiScan
