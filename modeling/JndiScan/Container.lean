/-
Entries decoded: class files are read, archives and Dalvik files become containers whose entries
are taken one by one. An entry that is known to be too large is never opened.
-/
import JndiScan.Dalvik.Conversion
import JndiScan.Walk.Decoder

namespace JndiScan

/-- A container that is not opened yet. -/
inductive Container
  /-- An archive, of which perhaps the members of one name alone count. -/
  | archive (e : Entry) (only : Option Text)
  | dalvik (e : Entry)

/-- A position in an opened container. Nothing is read before the first entry is asked for. -/
inductive Position
  | archiveStart (e : Entry) (only : Option Text)
  | archive (source : Zip.Source) (place : Provenance) (only : Option Text) (left : List Zip.Record)
  | dalvikStart (e : Entry)
  | converted (place : Provenance) (left : List Text)

/-- What decoding depends on. -/
structure Decoding where
  maxEntrySize : Limit
  readDalvik : Dalvik.ClassReader := Dalvik.readClasses
  codecs : Zip.Codecs := {}

namespace Decoding

/-- The member of an Android library that holds its classes. -/
def libraryClasses : Text := "classes.jar"

/-- The definition in a class file. -/
def readClass (d : Decoding) (e : Entry) : Work ClassDefinition := do
  e.checkSize d.maxEntrySize
  match ClassFile.read (← e.need) with
  | .ok definition => pure definition
  | .error error => throw (.ofReason e.place (.invalidClass error))

/-- Decodes an entry, by the kind that its name tells. -/
def decode (d : Decoding) (e : Entry) : Work (Walk.Decoded Container) :=
  let kind := EntryKind.ofName e.name
  match kind with
  | .classFile => do pure (.definition ⟨← d.readClass e, e.place⟩)
  | .archive => pure (.container kind e.place (.archive e none))
  | .androidLibrary => pure (.container kind e.place (.archive e (some libraryClasses)))
  | .dalvik => pure (.container kind e.place (.dalvik e))
  | .unknown => pure (.unrecognized e.name)

/-- Opens a container. -/
def enter (d : Decoding) : Container → Work Position
  | .archive e only => pure (.archiveStart e only)
  | .dalvik e => do
    e.checkSize d.maxEntrySize
    pure (.dalvikStart e)

/-- The entry of a member of an archive at a place. -/
def memberEntry (d : Decoding) (source : Zip.Source) (place : Provenance) (r : Zip.Record) :
    Entry :=
  { name := r.name, place := place.child r.name, payload := .member d.codecs source r
    size := some r.size }

/-- The next member that is no directory and has the name that counts. -/
def pullMember (d : Decoding) (source : Zip.Source) (place : Provenance) (only : Option Text) :
    List Zip.Record → Work (Option (Entry × Position))
  | [] => pure none
  | r :: left =>
    match r.isDirectory? with
    | none => throw (.aborted .emptyName)
    | some true => pullMember d source place only left
    | some false =>
      if only.all (· = r.name) then
        pure (some (memberEntry d source place r, .archive source place only left))
      else pullMember d source place only left

/-- The next class file of a conversion. After the last one its directory is removed. -/
def pullConverted (place : Provenance) (left : List Text) : Work (Option (Entry × Position)) :=
  fun s =>
    match left with
    | [] =>
      match Dalvik.Conversion.removeFault? s with
      | none => .ok none (Dalvik.Conversion.remove s)
      | some fault => .error (.aborted fault) (Dalvik.Conversion.remove s)
    | name :: left =>
      .ok (some (Dalvik.Conversion.entry s.scratch place name, .converted place left)) s

/-- The next entry of a container. -/
def pull (d : Decoding) : Position → Work (Option (Entry × Position))
  | .archiveStart e only => do
    e.checkSize d.maxEntrySize
    let source : Zip.Source := { bytes := ← e.need, medium := e.medium }
    match Zip.directory source with
    | .ok records => pullMember d source e.place only records
    | .error fault => throw (.ofReason e.place (.invalidArchive fault))
  | .archive source place only left => pullMember d source place only left
  | .dalvikStart e => do
    let names ← Dalvik.Conversion.start d.readDalvik e
    pullConverted e.place names
  | .converted place left => pullConverted place left

/-- Leaves a container. -/
def close : Position → Session → Session
  | .converted _ _, s => Dalvik.Conversion.remove s
  | _, s => s

/-- The fault that leaving a container raises, if it raises one. -/
def closeFault? : Position → Session → Option Fault
  | .converted _ _, s => Dalvik.Conversion.removeFault? s
  | _, _ => none

/-- Entries as a walk meets them. -/
def decoder (d : Decoding) : Walk.Decoder Session Entry Container Position :=
  { placeOf := Entry.place, decode := d.decode, enter := d.enter, pull := d.pull, close
    closeFault? }

end Decoding

end JndiScan
