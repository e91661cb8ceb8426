/-
Conversion of a Dalvik file to class files. All classes are written into a directory of the
conversion before the first of them is given out; the directory stands as long as the class files
may be read. Nothing is written outside of it.
-/
import JndiScan.Dalvik.File
import JndiScan.Entry

namespace JndiScan.Dalvik

/-- What reads a Dalvik file. -/
abbrev ClassReader := Bytes → Except Fault (List RawClass)

namespace Conversion

/-- The name of the file of a class. -/
def fileName (d : ClassDefinition) : Text := d.name ++ ".class"

/-- The place of the file of a class. -/
def placeOf (directory : List Text) (d : ClassDefinition) (host : Host) :
    Except ClassFault (List Text) := do
  let place ← (host.resolve (Path.below (Path.ofNames directory) (fileName d))).mapError .path
  if directory.isPrefixOf place && directory.length < place.length then pure place
  else throw (.outside d.name)

/-- Writes the file of a class. -/
def writeClass (directory : List Text) (d : ClassDefinition) : EStateM ClassFault Host Unit := do
  let place ← Host.ask (placeOf directory d)
  EStateM.adaptExcept .path (Host.makeDirectories place.dropLast)
  let octets ← Host.ask fun _ => (ClassFile.write d).mapError .unwritable
  EStateM.adaptExcept .path (Host.change (·.write (Path.ofNames place) octets))

/-- Writes the files of classes one after the other. -/
def writeClasses (directory : List Text) : List ClassDefinition → EStateM ClassFault Host Unit
  | [] => pure ()
  | d :: ds => do
    writeClass directory d
    writeClasses directory ds

/-- The names of the class files in the order in which they are given out. -/
def names (ds : List ClassDefinition) : List Text := Text.sortBy id (ds.map fileName)

/-- The session without the directory of the conversion. One in which directories are nested too
deep stays. What of it is gone by then depends on the order in which the system lists; here all of
it stays. -/
def remove (s : Session) : Session :=
  if s.host.canRemove s.scratch then { s with host := s.host.remove s.scratch } else s

/-- The fault that removing the directory of the conversion raises, if it raises one. -/
def removeFault? (s : Session) : Option JndiScan.Fault :=
  if s.host.canRemove s.scratch then none else some (.path (.tooDeep .removing))

/-- The trouble that is left when the directory of the conversion is removed after a trouble. -/
def troubleAfter (trouble : Trouble) (s : Session) : Trouble :=
  ((removeFault? s).map Trouble.aborted).getD trouble

/-- The definitions of the classes that the content of an entry holds. -/
def definitions (readClasses : ClassReader) (e : Entry) : Work (List ClassDefinition) := fun s =>
  match e.read s with
  | (.error fault, s) => .error (.ofReason e.place (.payloadUnread fault)) s
  | (.ok bytes, s) =>
    match readClasses bytes with
    | .error fault => .error (.ofReason e.place (.payloadInvalid fault)) s
    | .ok classes => .ok (classes.map RawClass.toDefinition) s

/-- Converts the content of an entry, in a new directory, and gives the names of the class files.
The directory is removed again when that fails. -/
def start (readClasses : ClassReader) (e : Entry) : Work (List Text) := fun s =>
  let s := { s with host := s.host.put (.directory []) s.scratch }
  match definitions readClasses e s with
  | .error trouble s => .error (troubleAfter trouble s) (remove s)
  | .ok ds s =>
    match writeClasses s.scratch ds s.host with
    | .error fault host =>
      let s := { s with host }
      .error (troubleAfter (.ofClass e.place fault) s) (remove s)
    | .ok _ host => .ok (names ds) { s with host }

/-- The entry of a class file. -/
def entry (scratch : List Text) (place : Provenance) (name : Text) : Entry :=
  { name, place := place.child name true
    payload := .file (Path.below (Path.ofNames scratch) name) }

end Conversion

end JndiScan.Dalvik
