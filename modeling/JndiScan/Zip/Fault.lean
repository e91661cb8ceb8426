/-
What may be wrong with an archive or with one of its members.
-/
import JndiScan.Deflate.Inflate
import JndiScan.Text.Quoted
import JndiScan.Text.Utf8

namespace JndiScan.Zip

/-- Where an archive is read from. The two differ in the positions that they have, and in how they
refuse one. -/
inductive Medium
  | file
  | memory
  deriving DecidableEq, Repr

/-- What is wrong with an archive or a member. -/
inductive Fault
  | notArchive
  | severalDisks
  | directoryBeforeStart
  /-- A position before the start of the medium, or beyond what its files may grow to. -/
  | noPosition (medium : Medium) (position : Int)
  /-- A position of a file that no system counts to. -/
  | positionTooLarge
  | truncatedDirectory
  | directoryMagic
  | nameEncoding (fault : Text.Utf8.Fault)
  | version (tenths : Nat)
  | extraField (id size : Nat)
  | largeSizes (field : Text)
  | truncatedHeader
  | headerMagic
  | patchedData
  | strongEncryption
  | namesDiffer (inDirectory : Text) (inHeader : List UInt8)
  /-- The data of the member go on where those of another one or the directory start. -/
  | overlapping (name : Text)
  | encrypted (description : Text)
  | method
  | endOfData
  | compressed (fault : Deflate.Fault)
  /-- What a decompressor says is wrong with its data. -/
  | bzip2 (wording : Text)
  | lzma (wording : Text)
  | checksum (name : Text)
  deriving DecidableEq, Repr

/-- The wording of a fault. Data that end too early have none. -/
def Fault.message : Fault → Text
  | notArchive => "File is not a zip file"
  | severalDisks => "zipfiles that span multiple disks are not supported"
  | directoryBeforeStart => "Bad offset for central directory"
  | noPosition .memory position => "negative seek value " ++ .ofInt position
  | noPosition .file _ => "[Errno 22] Invalid argument"
  | positionTooLarge => "cannot fit 'int' into an offset-sized integer"
  | truncatedDirectory => "Truncated central directory"
  | directoryMagic => "Bad magic number for central directory"
  | nameEncoding fault => fault.message
  | version tenths =>
    "zip file version " ++ .ofNat (tenths / 10) ++ "." ++ .ofNat (tenths % 10)
  | extraField id size =>
    "Corrupt extra field " ++ Text.hex 4 id ++ " (size=" ++ .ofNat size ++ ")"
  | largeSizes field => "Corrupt zip64 extra field. " ++ field ++ " not found."
  | truncatedHeader => "Truncated file header"
  | headerMagic => "Bad magic number for file header"
  | patchedData => "compressed patched data (flag bit 5)"
  | strongEncryption => "strong encryption (flag bit 6)"
  | namesDiffer inDirectory inHeader =>
    "File name in directory " ++ inDirectory.quoted ++ " and header "
      ++ Text.quotedOctets inHeader ++ " differ."
  | overlapping name => "Overlapped entries: " ++ name.quoted ++ " (possible zip bomb)"
  | encrypted description =>
    "File " ++ description ++ " is encrypted, password required for extraction"
  | method => "That compression method is not supported"
  | endOfData => []
  | bzip2 wording | lzma wording => wording
  | compressed fault => "Error -3 while decompressing data: " ++ fault.message
  | checksum name => "Bad CRC-32 for file " ++ name.quoted

end JndiScan.Zip
