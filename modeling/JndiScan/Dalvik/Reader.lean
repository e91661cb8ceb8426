/-
Readers of items: each takes octets from a position on and leaves the position behind them. A
position may be beyond the end, where nothing can be taken.
-/
import JndiScan.Bytes
import JndiScan.Dalvik.Fault

namespace JndiScan.Dalvik

/-- A place in a file, of which the octets are known as a whole. -/
structure Cursor where
  octets : ByteArray
  position : Nat

/-- A reader of one item. -/
abbrev Reader := StateT Cursor (Except Fault)

namespace Reader

/-- A number of `width` octets at an offset in an item that starts at the cursor, least significant
octet first. -/
def numberAt (c : Cursor) (offset width : Nat) : Nat :=
  (List.range width).foldr (fun i n => 256 * n + (c.octets.get! (c.position + offset + i)).toNat) 0

/-- Goes on at a position. -/
def goTo (position : Nat) : Reader Unit := modify fun c => { c with position }

/-- An item of `size` octets, which has to be there as a whole. -/
def item (size : Nat) (f : Cursor → α) : Reader α := fun c =>
  if c.position + size ≤ c.octets.size then .ok (f c, { c with position := c.position + size })
  else .error (.short size)

/-- A number of `n` octets, or of as many as there are. -/
def upTo (n : Nat) : Reader Nat := fun c =>
  let width := min n (c.octets.size - c.position)
  .ok (numberAt c 0 width, { c with position := c.position + width })

/-- Leaves `n` octets out, or as many as there are. -/
def skip (n : Nat) : Reader Unit := fun c =>
  .ok ((), { c with position := c.position + min n (c.octets.size - c.position) })

/-- A number of one octet. -/
def u1 : Reader Nat := item 1 fun c => numberAt c 0 1

/-- A number of two octets. -/
def u2 : Reader Nat := item 2 fun c => numberAt c 0 2

/-- A number of four octets. -/
def u4 : Reader Nat := item 4 fun c => numberAt c 0 4

/-- A number in groups of seven bits, least significant first, `more` groups at most. All bits of
the last possible octet count. -/
def leb128From (shift : Nat) : Nat → Reader Nat
  | 0 => pure 0
  | more + 1 => do
    let b ← u1
    if b < 0x80 || more = 0 then pure (b * Nat.pow 2 shift)
    else pure (b % 0x80 * Nat.pow 2 shift + (← leb128From (shift + 7) more))

/-- A number in groups of seven bits. -/
def leb128 : Reader Nat := leb128From 0 5

/-- The number with a sign that `bits` bits stand for, the first of which counts negatively. -/
def signed (bits n : Nat) : Int :=
  let half : Nat := Nat.pow 2 (bits - 1)
  if n < half then (n : Int) else ((n % half : Nat) : Int) - (half : Int)

/-- A number with a sign, `more` groups of seven bits at most; one with no last group counts as its
bits do. -/
def signedLeb128From (done shift : Nat) : Nat → Reader Int
  | 0 => pure (done : Int)
  | more + 1 => do
    let b ← u1
    let n := done + b % 0x80 * Nat.pow 2 shift
    if b < 0x80 then pure (signed (min (shift + 7) 32) n)
    else signedLeb128From n (shift + 7) more

/-- A number in groups of seven bits, with a sign. -/
def signedLeb128 : Reader Int := signedLeb128From 0 0 5

/-- `n` items in a row, added to `done`. -/
def manyFrom (item : Reader α) (done : Array α) : Nat → Reader (Array α)
  | 0 => pure done
  | n + 1 => do
    let x ← item
    manyFrom item (done.push x) n

/-- `n` items in a row. -/
def many (item : Reader α) (n : Nat) : Reader (Array α) := manyFrom item #[] n

/-- `n` items in a row, of which only the places matter. -/
def pass (item : Reader Unit) (n : Nat) : Reader Unit := do
  let _ ← many item n

/-- The item with the position where it starts. -/
def placed (item : Reader α) : Reader (Nat × α) := do
  let start := (← get).position
  let x ← item
  pure (start, x)

/-- The octets up to the next zero octet, which is taken too. -/
def zeroEnded (done : Bytes) : Nat → Reader Bytes
  | 0 => pure done.reverse
  | fuel + 1 => do
    let b ← u1
    if b = 0 then pure done.reverse else zeroEnded (b.toUInt8 :: done) fuel

end Reader

end JndiScan.Dalvik
