/-
Decompression of bzip2 data: blocks with a checksum each, and a checksum of all at the end.
-/
import JndiScan.Bzip2.Block

namespace JndiScan.Bzip2

/-! ## Checksums -/

/-- The polynomial of IEEE 802.3, most significant bit for the highest power. -/
def polynomial : UInt32 := 0x04C11DB7

/-- `n` bits of a division. -/
def shiftBits (r : UInt32) : Nat → UInt32
  | 0 => r
  | n + 1 => shiftBits (if r >>> 31 = 1 then (r <<< 1) ^^^ polynomial else r <<< 1) n

/-- The remainders of all octets. -/
def remainders : Array UInt32 :=
  (Array.range 256).map fun n => shiftBits (UInt32.ofNat (n * 16777216)) 8

/-- The remainder after one more octet. -/
def step (r : UInt32) (b : UInt8) : UInt32 :=
  (r <<< 8) ^^^ remainders.getD ((r >>> 24) ^^^ b.toUInt32).toNat 0

/-- The checksum of the octets of a block. -/
def checksum (bs : ByteArray) : UInt32 := bs.foldl step 0xFFFFFFFF ^^^ 0xFFFFFFFF

/-- The checksum of all blocks after one more. -/
def combine (all one : UInt32) : UInt32 := ((all <<< 1) ||| (all >>> 31)) ^^^ one

/-! ## Room for the output -/

/-- The sizes in KiB by which the room for the output grows, up to the one that is repeated. -/
def growth : List Nat :=
  [32, 64, 256, 1024, 4096, 8192, 16384, 16384, 32768, 32768, 32768, 32768, 65536, 65536, 131072,
    131072]

/-- The size in KiB by which large rooms grow. -/
def largeGrowth : Nat := 262144

/-- The octets for which there is room beside `size` of them, when the room has grown so that it
holds these and `sizes` tells how it grows from `room` on. -/
def roomBeside (size room : Nat) : List Nat → Nat
  | [] => (largeGrowth * 1024 - (size - room) % (largeGrowth * 1024)) % (largeGrowth * 1024)
  | n :: sizes =>
    if size ≤ room + n * 1024 then room + n * 1024 - size else roomBeside size (room + n * 1024) sizes

/-! ## Blocks -/

namespace Expand

/-- Produces the octets of a block. When the input is at its end, only those come for which there
is room, and the block is not checked if some are missing. -/
def produce (content : ByteArray) (sound : Bool) (sum : UInt32) : Expand Unit := do
  let s ← get
  let room := roomBeside s.output.size 0 growth
  if s.isTaken && room < content.size then
    set { s with output := s.output ++ content.extract 0 room }
    throw .starved
  else if !sound || checksum content ≠ sum then corrupt
  else set { s with output := s.output ++ content }

/-- A block of data of a level, after its mark. The level tells the size of blocks. -/
def block (level : Nat) : Expand UInt32 := do
  let sum := (← bits 32).toUInt32
  let scrambled := (← bit) = 1
  let origin ← bits 24
  let capacity := 100000 * level
  if 10 + capacity < origin then corrupt
  else
    let sorted ← readSorted capacity
    if sorted.size ≤ origin then corrupt
    else
      let (content, sound) := contentOf sorted origin scrambled
      produce content sound sum
      pure sum

/-- The blocks up to the end, `all` being the checksum of those before. Each starts with an octet
at least. -/
def blocks (level : Nat) (all : UInt32) : Nat → Expand Unit
  | 0 => throw .starved
  | fuel + 1 => do
    let mark ← bits 8
    if mark = 0x17 then
      expect [0x72, 0x45, 0x38, 0x50, 0x90]
      if (← bits 32).toUInt32 ≠ all then corrupt
    else if mark = 0x31 then
      expect [0x41, 0x59, 0x26, 0x53, 0x59]
      blocks level (combine all (← block level)) fuel
    else corrupt

/-- The data. -/
def whole : Expand Unit := do
  expect ("BZh".toList.map Char.toNat)
  let level ← bits 8
  if level < 0x31 || 0x39 < level then corrupt
  else blocks (level - 0x30) 0 ((← get).input.size + 1)

end Expand

/-- What data unpack to, and whether they reach their end. -/
def decompress (data : Bytes) : Except Fault (Bytes × Bool) :=
  match Expand.whole { input := ByteArray.mk data.toArray } with
  | .ok _ s => .ok (s.output.toList, true)
  | .error .starved s => .ok (s.output.toList, false)
  | .error (.faulty fault) _ => .error fault

end JndiScan.Bzip2
