/-
What goes wrong during a scan. A failure costs an entry or the rest of a container, and the scan
goes on; a fault ends it.
-/
import JndiScan.ClassFile.Reader
import JndiScan.ClassFile.Writer
import JndiScan.Dalvik.Fault
import JndiScan.Files.Fault
import JndiScan.Provenance
import JndiScan.Zip.Fault

namespace JndiScan

/-- A place together with what is said about it. -/
def Text.saidOf (place what : Text) : Text := place ++ ": " ++ what

/-- Why the content of an entry cannot be had. -/
inductive OpenFault
  /-- The member of an archive at a place is damaged. -/
  | corruptMember (place : Provenance) (fault : Zip.Fault)
  /-- The member of an archive in memory starts where no memory is. -/
  | memberBeyondMemory
  /-- The LZMA data of a member are wrong. -/
  | lzma (wording : Text)
  | path (fault : PathFault)
  deriving DecidableEq, Repr

namespace OpenFault

/-- The open fault of a member at a place. -/
def ofMember (place : Provenance) : Zip.Medium → Zip.Fault → OpenFault
  | .memory, .positionTooLarge => memberBeyondMemory
  | _, .lzma wording => lzma wording
  | _, fault => corruptMember place fault

end OpenFault

/-- What is said of a start that no memory has. -/
def beyondMemory : Text := "Python int too large to convert to C ssize_t"

/-- What is said of a damaged member. -/
def Zip.Fault.inMember (fault : Zip.Fault) : Text := "corrupt archive member: " ++ fault.message

/-- The wording of an open fault. -/
def OpenFault.message : OpenFault → Text
  | corruptMember place fault => place.text.saidOf fault.inMember
  | memberBeyondMemory => beyondMemory
  | lzma wording => wording
  | path fault => fault.message

/-- Why a class of a Dalvik file was not written as a class file. -/
inductive ClassFault
  /-- Its name leads out of the directory of the conversion. -/
  | outside (name : Text)
  | unwritable (error : ClassFile.WriteError)
  | path (fault : PathFault)
  deriving DecidableEq, Repr

/-- The wording of a class fault. -/
def ClassFault.message : ClassFault → Text
  | outside name => name.saidOf "class name escapes the conversion directory"
  | unwritable error => error.message
  | path fault => fault.message

/-- Why an entry was not decoded, or a container not gone through. -/
inductive Reason
  | oversize (size limit : Int)
  | invalidClass (error : ClassFile.ReadError)
  | unreadable (error : FileError)
  | invalidArchive (fault : Zip.Fault)
  | corruptMember (fault : Zip.Fault)
  | payloadUnread (fault : OpenFault)
  | payloadInvalid (fault : Dalvik.Fault)
  | classNotWritten (fault : ClassFault)
  deriving DecidableEq, Repr

namespace Reason

/-- The wording of a reason. -/
def message : Reason → Text
  | oversize size limit => "entry size " ++ .ofInt size ++ " exceeds limit " ++ .ofInt limit
  | invalidClass error => "invalid class file: " ++ error.message
  | unreadable error => "read failed: " ++ error.message
  | invalidArchive fault => "invalid archive: " ++ fault.message
  | corruptMember fault => fault.inMember
  | payloadUnread fault => "dex conversion failed: " ++ fault.message
  | payloadInvalid fault => "dex conversion failed: " ++ fault.message
  | classNotWritten fault => "dex class conversion failed: " ++ fault.message

/-- Does the reason lie in a conversion from Dalvik code? -/
def isConversion : Reason → Bool
  | payloadUnread _ | payloadInvalid _ | classNotWritten _ => true
  | _ => false

end Reason

/-- What the scan survives: an entry that does not decode, or a plain error of the system. -/
inductive Failure
  | entry (place : Provenance) (reason : Reason)
  | system (error : FileError)
  deriving DecidableEq, Repr

namespace Failure

/-- What is said of a failure beside its place. -/
def reason : Failure → Text
  | entry _ reason => reason.message
  | system error => error.message

/-- What is said of a failure. -/
def message : Failure → Text
  | entry place reason => place.text.saidOf reason.message
  | system error => error.message

/-- What stands for a location that is not known. -/
def unknownLocation : Text := "<unknown>"

/-- The place that a failure tells by itself. -/
def location : Failure → Text
  | entry place _ => place.text
  | system error =>
    match error.path? with
    | some p => if p.isEmpty then unknownLocation else p
    | none => unknownLocation

end Failure

/-- What ends a scan. -/
inductive Fault
  | path (fault : PathFault)
  /-- A member of an archive has an empty name. -/
  | emptyName
  /-- A member of an archive in memory starts where no memory is. -/
  | memberBeyondMemory
  /-- The LZMA data of a member of an archive are wrong. -/
  | lzma (wording : Text)
  /-- A count does not fit into its field. -/
  | overflow
  /-- A limit that was not said is needed. -/
  | limitUnsaid
  deriving DecidableEq, Repr

/-- The wording of a fault. -/
def Fault.message : Fault → Text
  | path fault => fault.message
  | emptyName => "string index out of range"
  | memberBeyondMemory => beyondMemory
  | lzma wording => wording
  | overflow => ClassFile.WriteError.overflow.message
  | limitUnsaid => "'>' not supported between instances of 'int' and 'list'"

/-- A failure or a fault. -/
inductive Trouble
  | failed (failure : Failure)
  | aborted (fault : Fault)
  deriving DecidableEq, Repr

namespace Trouble

/-- An entry at a place does not decode. -/
def ofReason (place : Provenance) (reason : Reason) : Trouble := .failed (.entry place reason)

/-- The trouble of an entry at a place whose content is needed. -/
def ofOpening (place : Provenance) : OpenFault → Trouble
  | .corruptMember member fault => ofReason member (.corruptMember fault)
  | .memberBeyondMemory => .aborted .memberBeyondMemory
  | .lzma wording => .aborted (.lzma wording)
  | .path (.file error) => ofReason place (.unreadable error)
  | .path fault => .aborted (.path fault)

/-- The trouble of a conversion at a place. A class that is too long for the format, a name that
leads out and an error of the system are failures; everything else is a fault. -/
def ofClass (place : Provenance) : ClassFault → Trouble
  | .unwritable .overflow => .aborted .overflow
  | .path (.file error) => ofReason place (.classNotWritten (.path (.file error)))
  | .path fault => .aborted (.path fault)
  | fault => ofReason place (.classNotWritten fault)

end Trouble

end JndiScan
