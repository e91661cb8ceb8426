/-
Entries: files on disk and members of containers. An entry is opened only when its content is
needed, and every opening is noted.
-/
import JndiScan.Failure
import JndiScan.Files.Host
import JndiScan.Limit
import JndiScan.Zip.Member

namespace JndiScan

/-- What a scan works on: the file system, the directory that conversions use while they last, and
the places of the entries opened so far, last first. -/
structure Session where
  host : Host
  scratch : List Text
  opened : List Provenance := []

/-- Work that may end in trouble. -/
abbrev Work := EStateM Trouble Session

/-- Where the content of an entry comes from. -/
inductive Payload
  | file (path : Text)
  | member (codecs : Zip.Codecs) (archive : Zip.Source) (record : Zip.Record)
  | given (content : Except FileError Bytes)

/-- An entry. Files on disk tell no size. -/
structure Entry where
  name : Text
  place : Provenance
  payload : Payload
  size : Option Int := none

namespace Entry

/-- The entry of a file on disk. -/
def ofPath (path : Text) : Entry :=
  { name := Path.lastName path, place := { root := path }, payload := .file path }

/-- Where an archive with the content of the entry is read from. -/
def medium (e : Entry) : Zip.Medium :=
  match e.payload with
  | .file _ => .file
  | _ => .memory

/-- The content of the entry. -/
def content (e : Entry) (host : Host) : Except OpenFault Bytes :=
  match e.payload with
  | .file path => (host.read path).mapError .path
  | .member codecs archive record =>
    (Zip.readMember codecs archive record).mapError (.ofMember e.place archive.medium)
  | .given (.ok bytes) => .ok bytes
  | .given (.error error) => .error (.path (.file error))

/-- Opens the entry. -/
def read (e : Entry) (s : Session) : Except OpenFault Bytes × Session :=
  (e.content s.host, { s with opened := e.place :: s.opened })

/-- The content of an entry that a scan needs. -/
def need (e : Entry) : Work Bytes := fun s =>
  match e.read s with
  | (.ok bytes, s) => .ok bytes s
  | (.error fault, s) => .error (.ofOpening e.place fault) s

/-- Refuses an entry whose size is known to exceed a limit. -/
def checkSize (e : Entry) (limit : Limit) : Work Unit :=
  match e.size, limit with
  | none, _ => pure ()
  | some _, .unsaid => throw (.aborted .limitUnsaid)
  | some size, .atMost n =>
    if size > n then throw (.ofReason e.place (.oversize size n)) else pure ()

end Entry

end JndiScan
