/-
Reading a member of an archive. Its header is checked against the directory; sizes and checksum are
those of the directory. At most the announced size is given out, and data that end too early are
an error unless that size was reached.
-/
import JndiScan.Checksum.Crc32
import JndiScan.Zip.Codecs
import JndiScan.Zip.Directory

namespace JndiScan.Zip

/-! ## The description of a member -/

/-- The names of compression methods. -/
def methodNames : List (Nat × Text) := [
  (0, "store"), (1, "shrink"), (2, "reduce"), (3, "reduce"), (4, "reduce"), (5, "reduce"),
  (6, "implode"), (7, "tokenize"), (8, "deflate"), (9, "deflate64"), (10, "implode"),
  (12, "bzip2"), (14, "lzma"), (18, "terse"), (19, "lz77"), (97, "wavpack"), (98, "ppmd")]

/-- Three letters for the permissions of one class of users. `special` is the letter for an extra
permission that is shown in place of execution, in capitals when execution itself is missing. -/
def permissions (bits : Nat) (extra : Bool) (special capital : Text) : Text :=
  let read : Text := if bits / 4 % 2 = 1 then "r" else "-"
  let write : Text := if bits / 2 % 2 = 1 then "w" else "-"
  let execute : Text :=
    if bits % 2 = 1 then (if extra then special else "x") else (if extra then capital else "-")
  read ++ write ++ execute

/-- The letter for the kind of a file. -/
def fileKind (mode : Nat) : Text :=
  match mode / 4096 % 16 with
  | 10 => "l"
  | 12 => "s"
  | 8 => "-"
  | 6 => "b"
  | 4 => "d"
  | 2 => "c"
  | 1 => "p"
  | _ => "?"

/-- The mode of a file in letters. -/
def fileMode (mode : Nat) : Text :=
  fileKind mode ++ permissions (mode / 64 % 8) (mode / 2048 % 2 = 1) "s" "S"
    ++ permissions (mode / 8 % 8) (mode / 1024 % 2 = 1) "s" "S"
    ++ permissions (mode % 8) (mode / 512 % 2 = 1) "t" "T"

/-- Does the name tell a directory? An empty name tells nothing. -/
def Record.isDirectory? (r : Record) : Option Bool :=
  r.name.getLast?.map (· = .ofChar '/')

/-- A member as messages describe it. -/
def Record.description (r : Record) : Text :=
  let isDirectory := r.isDirectory? = some true
  let method : Text :=
    if r.method = 0 then []
    else " compress_type=" ++ (methodNames.lookup r.method).getD (.ofNat r.method)
  let high := r.externalAttributes / 65536
  let low := r.externalAttributes % 65536
  let mode : Text := if high = 0 then [] else " filemode=" ++ (fileMode high).quoted
  let attributes : Text := if low = 0 then [] else " external_attr=0x" ++ Text.hex 1 low
  let size : Text :=
    if !isDirectory || r.size ≠ 0 then " file_size=" ++ .ofNat r.size else []
  let compressedSize : Text :=
    if (!isDirectory || r.compressedSize ≠ 0) && (r.method ≠ 0 || r.size ≠ r.compressedSize) then
      " compress_size=" ++ .ofNat r.compressedSize
    else []
  "<ZipInfo filename=" ++ r.name.quoted ++ method ++ mode ++ attributes ++ size ++ compressedSize
    ++ ">"

/-! ## The data of a member -/

/-- The flag of encrypted members. -/
def encryptedFlag : Nat := 0x1

/-- The flag of members that hold changes to other data. -/
def patchedFlag : Nat := 0x20

/-- The flag of strongly encrypted members. -/
def strongFlag : Nat := 0x40

/-- Is a position within the numbers of 64 bits with a sign? -/
def isCounted (position : Int) : Bool :=
  -0x8000000000000000 ≤ position && position < 0x8000000000000000

/-- The largest position in a file: what 32 bits count in blocks of 4096 octets. -/
def maxFilePosition : Nat := 0xFFFFFFFF * 4096

/-- A position of a medium. -/
def positionIn (medium : Medium) (position : Int) : Except Fault Nat :=
  if !isCounted position then .error .positionTooLarge
  else if position < 0 || (medium = .file && position > maxFilePosition) then
    .error (.noPosition medium position)
  else .ok position.toNat

/-- Checks the header of a member and gives what follows it. -/
def skipHeader (s : Source) (r : Record) : Except Fault Bytes := do
  let start ← positionIn s.medium r.offset
  let data : Bytes := s.bytes.drop start
  let header : Bytes := data.take 30
  if header.length < 30 then throw .truncatedHeader
  if header.take 4 ≠ headerMark then throw .headerMagic
  let nameLength := header.fieldLE 26 2
  let rawName := data.slice 30 nameLength
  if r.flags &&& patchedFlag ≠ 0 then throw .patchedData
  if r.flags &&& strongFlag ≠ 0 then throw .strongEncryption
  let name ←
    match nameOf (header.fieldLE 6 2) rawName with
    | .ok t => pure t
    | .error fault => throw (.nameEncoding fault)
  if name ≠ r.fullName then throw (.namesDiffer r.fullName rawName)
  let length := min (30 + nameLength + header.fieldLE 28 2) data.length
  if r.bound < (start + length + r.compressedSize : Nat) then throw (.overlapping r.fullName)
  if r.flags &&& encryptedFlag ≠ 0 then throw (.encrypted r.description)
  pure (data.drop length)

/-- What inflated data of a member unpack to. -/
def unpackDeflated (data : Bytes) : Except Fault (Bytes × Bool) :=
  match Deflate.inflate (ByteArray.mk data.toArray) with
  | .ok r => .ok (r.output.toList, r.complete)
  | .error fault => .error (.compressed fault)

/-- Where the LZMA data of a member start: after the length of their properties and these. -/
def lzmaStart (data : Bytes) : Nat := 4 + data.fieldLE 2 2

/-- The properties of the LZMA data of a member. -/
def lzmaProperties (data : Bytes) : Bytes := data.slice 4 (data.fieldLE 2 2)

/-- What LZMA data of a member unpack to: nothing as long as only their properties are there. -/
def unpackLzma (codecs : Codecs) (data : Bytes) : Except Fault (Bytes × Bool) :=
  if data.length ≤ lzmaStart data then .ok ([], false)
  else (codecs.lzma (lzmaProperties data) (data.drop (lzmaStart data))).mapError .lzma

/-- How members of a method are unpacked: what their data give, and whether they reach their end.
Stored data never do by themselves. -/
def unpacker? (codecs : Codecs) : Nat → Option (Bytes → Except Fault (Bytes × Bool))
  | 0 => some fun data => .ok (data, false)
  | 8 => some unpackDeflated
  | 12 => some fun data => (codecs.bzip2 data).mapError .bzip2
  | 14 => some (unpackLzma codecs)
  | _ => none

/-- The contents of a member. -/
def readMember (codecs : Codecs) (s : Source) (r : Record) : Except Fault Bytes := do
  let following ← skipHeader s r
  let some unpack := unpacker? codecs r.method | throw .method
  let data : Bytes := following.take r.compressedSize
  if data.isEmpty && r.compressedSize ≠ 0 then throw .endOfData
  let (unpacked, complete) ← unpack data
  let content := unpacked.take r.size
  let reached := complete || data.length = r.compressedSize || r.size ≤ unpacked.length
  if !reached then throw .endOfData
  if (Crc32.ofBytes content).toNat ≠ r.crc then throw (.checksum r.name)
  pure content

end JndiScan.Zip
