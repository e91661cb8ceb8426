/-
The directory of an archive. The end record is looked for at the end of the archive and, when a
comment or other data follow it, in the last 64 KiB. Data may precede the archive; all positions
are then moved by their length.
-/
import JndiScan.Zip.Fault
import JndiScan.Zip.Name

namespace JndiScan.Zip

/-- An archive that can be read. -/
structure Source where
  bytes : Bytes
  medium : Medium
  deriving DecidableEq, Repr

/-- A member as the directory describes it. -/
structure Record where
  /-- The name as it is written. -/
  fullName : Text
  versionNeeded : Nat
  flags : Nat
  method : Nat
  crc : Nat
  compressedSize : Nat
  size : Nat
  externalAttributes : Nat
  /-- Where the member starts. -/
  offset : Int
  /-- Where it has to end. -/
  bound : Int
  deriving DecidableEq, Repr

namespace Record

/-- The name up to the first NUL. -/
def name (r : Record) : Text := r.fullName.takeWhile (·.val ≠ 0)

end Record

/-- What an end record tells: where it stands, the extent of the directory, and whether it is of
the large form. -/
structure EndRecord where
  location : Nat
  directorySize : Nat
  directoryOffset : Nat
  large : Bool
  deriving DecidableEq, Repr

/-- The mark of end records. -/
def endMark : Bytes := [0x50, 0x4B, 5, 6]

/-- The mark of large end records. -/
def largeEndMark : Bytes := [0x50, 0x4B, 6, 6]

/-- The mark of what leads to a large end record. -/
def locatorMark : Bytes := [0x50, 0x4B, 6, 7]

/-- The mark of directory records. -/
def directoryMark : Bytes := [0x50, 0x4B, 1, 2]

/-- The mark of member headers. -/
def headerMark : Bytes := [0x50, 0x4B, 3, 4]

/-- The last position at which `mark` stands, `position` being that of the first octet. -/
def lastPosition (mark : Bytes) (position : Nat) (found : Option Nat) : Bytes → Option Nat
  | [] => found
  | b :: bs =>
    lastPosition mark (position + 1)
      (if mark.isPrefixOf (b :: bs) then some position else found) bs

/-- The end record of 22 octets at a position. -/
def endRecordAt (bs : Bytes) (location : Nat) : EndRecord :=
  { location, directorySize := bs.fieldLE (location + 12) 4
    directoryOffset := bs.fieldLE (location + 16) 4, large := false }

/-- The end record of the usual form. -/
def findEnd? (bs : Bytes) : Option EndRecord :=
  let size := bs.length
  let last := size - 22
  if 22 ≤ size && (bs.slice last 4) == endMark && bs.fieldLE (size - 2) 2 == 0 then
    some (endRecordAt bs last)
  else
    let start := size - (65536 + 22)
    match lastPosition endMark start none (bs.drop start) with
    | some location => if location + 22 ≤ size then some (endRecordAt bs location) else none
    | none => none

/-- A position counted from the start of an archive; memory starts at zero whatever is asked. -/
def position? (medium : Medium) (p : Int) : Option Nat :=
  if 0 ≤ p then some p.toNat
  else
    match medium with
    | .memory => some 0
    | .file => none

/-- The end record with the extent that a large one before it gives, if there is one. -/
def enlarge (s : Source) (e : EndRecord) : Except Fault EndRecord :=
  match position? s.medium ((e.location : Int) - 20) with
  | none => .ok e
  | some locator =>
    if s.bytes.slice locator 4 ≠ locatorMark then .ok e
    else if s.bytes.fieldLE (locator + 4) 4 ≠ 0 || s.bytes.fieldLE (locator + 16) 4 > 1 then
      .error .severalDisks
    else
      match position? s.medium ((e.location : Int) - 76) with
      | none => .error .notArchive
      | some large =>
        let raw := s.bytes.slice large 56
        if raw.length ≠ 56 || raw.take 4 ≠ largeEndMark then .ok e
        else
          .ok { e with
            directorySize := raw.fieldLE 40 8, directoryOffset := raw.fieldLE 48 8, large := true }

/-- The end record of an archive. -/
def endRecord (s : Source) : Except Fault EndRecord :=
  match findEnd? s.bytes with
  | none => .error .notArchive
  | some e => enlarge s e

namespace EndRecord

/-- Where the directory starts. -/
def directoryStart (e : EndRecord) : Int :=
  (e.location : Int) - e.directorySize - (if e.large then 76 else 0)

/-- The length of the data before the archive. -/
def lead (e : EndRecord) : Int := e.directoryStart - e.directoryOffset

end EndRecord

/-! ## Directory records -/

/-- The next eight octets for a size that is marked as too large for its field. -/
def largeField (field : Text) (data : Bytes) : Except Fault (Nat × Bytes) :=
  if data.length < 8 then .error (.largeSizes field)
  else .ok (Bytes.littleEndian (data.take 8), data.drop 8)

/-- A record with the large sizes that an extra field gives. -/
def applyLargeSizes (r : Record) (data : Bytes) : Except Fault Record := do
  let (size, data) ←
    if r.size = 0xFFFFFFFF || r.size = 0xFFFFFFFFFFFFFFFF then largeField "File size" data
    else pure (r.size, data)
  let (compressedSize, data) ←
    if r.compressedSize = 0xFFFFFFFF then largeField "Compress size" data
    else pure (r.compressedSize, data)
  let (offset, _) ←
    if r.offset = 0xFFFFFFFF then do
      let (n, data) ← largeField "Header offset" data
      pure ((n : Int), data)
    else pure (r.offset, data)
  pure { r with size, compressedSize, offset }

/-- A record with what its extra fields give. Less than four octets at the end are no field. -/
def applyExtra (r : Record) (extra : Bytes) : Except Fault Record :=
  if extra.length < 4 then .ok r
  else
    let id := extra.fieldLE 0 2
    let size := extra.fieldLE 2 2
    if extra.length < size + 4 then .error (.extraField id size)
    else do
      let r ← if id = 1 then applyLargeSizes r (extra.slice 4 size) else pure r
      applyExtra r (extra.drop (size + 4))
  termination_by extra.length
  decreasing_by simp only [List.length_drop]; omega

/-- The largest version needed that is supported, in tenths. -/
def maxVersion : Nat := 63

/-- The length of the part of a record that every record has. -/
def recordLength : Nat := 46

/-- The record that directory data begin with, and the length of its further part as its fields
tell it. -/
def readRecord (lead : Int) (data : Bytes) : Except Fault (Record × Nat) := do
  if (data.take recordLength).length < recordLength then throw .truncatedDirectory
  if data.take 4 ≠ directoryMark then throw .directoryMagic
  let nameLength := data.fieldLE 28 2
  let extraLength := data.fieldLE 30 2
  let commentLength := data.fieldLE 32 2
  let flags := data.fieldLE 8 2
  let fullName ←
    match nameOf flags (data.slice recordLength nameLength) with
    | .ok t => pure t
    | .error fault => throw (.nameEncoding fault)
  let r : Record :=
    { fullName, versionNeeded := data.fieldLE 6 1, flags, method := data.fieldLE 10 2
      crc := data.fieldLE 16 4, compressedSize := data.fieldLE 20 4, size := data.fieldLE 24 4
      externalAttributes := data.fieldLE 38 4, offset := (data.fieldLE 42 4 : Nat), bound := 0 }
  if r.versionNeeded > maxVersion then throw (.version r.versionNeeded)
  let r ← applyExtra r (data.slice (recordLength + nameLength) extraLength)
  pure ({ r with offset := r.offset + lead }, nameLength + extraLength + commentLength)

/-- The records up to the end of the directory, after those in `done`, which are held last first.
`left` octets of the directory are not read yet, as its size tells. -/
def readRecords (lead : Int) (done : List Record) (left : Nat) (data : Bytes) :
    Except Fault (List Record) :=
  if left = 0 then .ok done.reverse
  else
    match readRecord lead data with
    | .error fault => .error fault
    | .ok (r, more) =>
      let length := recordLength + more
      readRecords lead (r :: done) (left - length) (data.drop length)
  termination_by left
  decreasing_by simp only [recordLength]; omega

/-- The records with their bounds. From the last start to the first one, a member is bounded by the
start of the one before, the first of them by the start of the directory; of members with one start
the first record comes first. -/
def bounded (start : Int) (rs : List Record) : List Record :=
  let fromLast := rs.zipIdx.mergeSort fun a b => b.1.offset ≤ a.1.offset
  let bounds := start :: fromLast.map (·.1.offset)
  let withBounds := List.zipWith (fun (r, i) bound => ({ r with bound }, i)) fromLast bounds
  (withBounds.mergeSort fun (a : Record × Nat) b => a.2 ≤ b.2).map (·.1)

/-- The members of an archive, in the order of its directory. -/
def directory (s : Source) : Except Fault (List Record) := do
  let e ← endRecord s
  match e.directoryStart with
  | .negSucc _ => throw .directoryBeforeStart
  | .ofNat start =>
    let records ← readRecords e.lead [] e.directorySize (s.bytes.slice start e.directorySize)
    pure (bounded start records)

end JndiScan.Zip
