/-
Reading Dalvik files. The header is checked, and everything else is found through the map of the
file.
-/
import JndiScan.Checksum.Adler32
import JndiScan.Dalvik.Contents

namespace JndiScan.Dalvik

/-- The length of a header. -/
def headerLength : Nat := 112

/-- Checks a header that starts at a place, and gives the place of the map. The byte order, which
is that of the whole file, is looked at first. The checksum is that of everything after it. -/
def checkHeader (bs : Bytes) (place : Nat) : Except Fault Nat := do
  if bs.length < headerLength then throw .headerTooSmall
  let order := bs.fieldLE 40 4
  if order = 0x78563412 then throw .swapped
  if order ≠ 0x12345678 then throw (.endianTag order)
  let header := bs.slice place headerLength
  if header.length < headerLength then throw (.short headerLength)
  let number (offset : Nat) : Nat := Bytes.fieldLE header offset 4
  let magic : Bytes := header.take 8
  let isMagic := (magic.take 3 = [0x64, 0x65, 0x78] || magic.take 3 = [0x64, 0x65, 0x79])
    && magic.getD 3 0 = 0x0A && magic.getD 7 1 = 0
  if !isMagic then throw (.magic magic)
  if Adler32.ofBytes (bs.drop (place + 12)) ≠ number 8 then throw .checksum
  if number 36 ≠ headerLength then throw (.headerSize (number 36))
  if number 64 > 65535 then throw (.tooManyTypes (number 64))
  if number 72 > 65535 then throw (.tooManyPrototypes (number 72))
  pure (number 52)

/-- An entry of the map: items of one type, how many, and where the first is. -/
structure MapEntry where
  type : ItemType
  count : Nat
  place : Nat

/-- An entry of the map. -/
def mapEntry : Reader MapEntry := do
  let number ← Reader.u2
  match ItemType.ofNumber? number with
  | none => throw (.itemType number)
  | some type =>
    Reader.item 10 fun c =>
      { type, count := Reader.numberAt c 2 4, place := Reader.numberAt c 6 4 }

/-- The contents with what an entry of the map tells. A header is checked once more. -/
def readEntry (bs : Bytes) (cs : Contents) (e : MapEntry) : Reader Contents := do
  if e.type = .header then
    let _ ← checkHeader bs (e.type.start e.place)
    pure cs
  else
    Reader.goTo (e.type.start e.place)
    cs.readItems e.type e.count

/-- Everything that the map at the cursor tells, in the order in which items need each other. -/
def readContents (bs : Bytes) : Reader Contents := do
  let entries ← Reader.many mapEntry (← Reader.u4)
  let ordered := entries.toList.mergeSort fun a b => a.type.rank ≤ b.type.rank
  ordered.foldlM (readEntry bs) {}

/-- The classes of a file, in its order. -/
def readClasses (bs : Bytes) : Except Fault (List RawClass) := do
  let place ← checkHeader bs 0
  if place = 0 then throw .noMap
  let (contents, _) ← readContents bs { octets := ByteArray.mk bs.toArray, position := place }
  (contents.classes.getD #[]).toList.mapM contents.classOf

end JndiScan.Dalvik
