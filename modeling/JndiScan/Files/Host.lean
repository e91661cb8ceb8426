/-
The file system that a scan sees: one tree from the root on, and a working directory. Paths are
followed as the system does it, name by name and through links; a text is resolved by the same
steps, except that what is missing is kept. Work that calls itself for each directory or link is
given up when its calls are nested too deep.
-/
import JndiScan.Files.Path
import JndiScan.Files.Tree

namespace JndiScan

/-- How many calls of work that calls itself may be open at a time. A thousand calls may be open in
all; those that are open when the work begins, and those that it makes in its last call, are taken
off. -/
structure CallLimits where
  making : Nat := 970
  removing : Nat := 970
  listing : Nat := 970
  resolving : Nat := 970
  deriving DecidableEq, Repr

/-- A file system with a working directory, and with directories that it does not list, each with
what it answers. -/
structure Host where
  root : FileTree
  workingDirectory : List Text := []
  unlisted : List (List Text × SystemError) := []
  nesting : CallLimits := {}
  deriving Repr, BEq

namespace Host

/-- The file system with something put at a place. -/
def put (host : Host) (new : FileTree) (place : List Text) : Host :=
  { host with root := FileTree.put new place host.root }

/-- The file system without what stands at a place. -/
def remove (host : Host) (place : List Text) : Host :=
  { host with root := FileTree.remove place host.root }

/-- What the system answers in place of a list of the directory at a place, if it does not list
it. -/
def refusal? (host : Host) (place : List Text) : Option SystemError :=
  (host.unlisted.find? fun r => r.1.map Path.octets = place.map Path.octets).map (·.2)

/-- Can what stands at a place be removed? A call for each directory on the way down is open. -/
def canRemove (host : Host) (place : List Text) : Bool :=
  (host.root.at? place).all (·.depth ≤ host.nesting.removing)

/-! ## Following a path -/

/-- Where following a path ends: at something, or at a name that its directory does not hold. -/
inductive Landing
  | present (place : List Text)
  | absent (place : List Text)
  deriving DecidableEq, Repr

/-- The most links that are followed on the way of one path. -/
def maxLinks : Nat := 40

/-- The names of a path as the system takes them: a final slash asks for a directory, and so does
the name of the directory itself at the end. -/
def steps (p : Text) : List Text :=
  let last := (p.splitOn Path.slash).getLast?
  Path.names p ++ if last = some [] || last = some Path.here then [Path.here] else []

/-- Follows names from a place, which is held last name first; `links` more links may be met. -/
def follow (host : Host) (links : Nat) (place : List Text) (names : List Text) :
    Except SystemError Landing :=
  match names with
  | [] => .ok (.present place.reverse)
  | name :: rest =>
    match host.root.at? place.reverse with
    | some (.directory entries) =>
      if name = Path.here then follow host links place rest
      else if name = Path.above then follow host links (place.drop 1) rest
      else if Path.octetLength name > Path.maxName then .error .nameTooLong
      else
        match FileTree.lookup name entries with
        | none => if rest.isEmpty then .ok (.absent (name :: place).reverse) else .error .notFound
        | some (.link target) =>
          match links with
          | 0 => .error .tooManyLinks
          | left + 1 =>
            follow host left (if Path.isAbsolute target then [] else place) (steps target ++ rest)
        | some _ => follow host links (name :: place) rest
    | _ => .error .notDirectory
  termination_by (links, names.length)

/-- Where a path leads. -/
def locate (host : Host) (p : Text) : Except PathFault Landing := do
  Path.check p
  let start := if Path.isAbsolute p then [] else host.workingDirectory.reverse
  let found :=
    if p.isEmpty then .error .notFound
    else if Path.octetLength p > Path.maxPath then .error .nameTooLong
    else follow host maxLinks start (steps p)
  match found with
  | .ok landing => .ok landing
  | .error e => .error (.file (.system e p))

/-- What a path leads to. -/
def find (host : Host) (p : Text) : Except PathFault FileTree := do
  match ← host.locate p with
  | .present place =>
    match host.root.at? place with
    | some t => .ok t
    | none => .error (.file (.system .notFound p))
  | .absent _ => .error (.file (.system .notFound p))

/-- The content of the file at a path. -/
def read (host : Host) (p : Text) : Except PathFault Bytes := do
  match ← host.find p with
  | .file content => .ok content
  | _ => .error (.file (.system .isDirectory p))

/-- Does a path lead to something that satisfies `wanted`? Texts that cannot be paths lead to
nothing; of the errors of the system, those that do not mean absence remain errors. -/
def leadsTo (host : Host) (wanted : FileTree → Bool) (p : Text) : Except PathFault Bool :=
  match host.find p with
  | .ok t => .ok (wanted t)
  | .error (.file (.system e path)) =>
    if e.meansAbsent then .ok false else .error (.file (.system e path))
  | .error (.file e) => .error (.file e)
  | .error _ => .ok false

/-- Is there anything at a path? -/
def exists? (host : Host) (p : Text) : Except PathFault Bool := host.leadsTo (fun _ => true) p

/-- Is there a file at a path? -/
def isFile? (host : Host) (p : Text) : Except PathFault Bool :=
  host.leadsTo (fun t => match t with | .file _ => true | _ => false) p

/-- Where a path that starts at a place leads when a file is to be written: to a file, or to a name
that its directory does not hold. Links at the end are followed, `links` of them at most. A path
that asks for a directory leads to no file, whether there is one or not. -/
def placeToWrite (host : Host) (place : List Text) (p : Text) :
    (links : Nat) → Except SystemError (List Text)
  | 0 => .error .tooManyLinks
  | links + 1 => do
    let start := if Path.isAbsolute p then [] else place
    let parts := (p.splitOn Path.slash).filter fun n => !n.isEmpty
    let last := parts.getLast?.getD Path.here
    if last = Path.here || last = Path.above then
      let _ ← follow host links start (steps p)
      throw .isDirectory
    match ← follow host links start (parts.dropLast.filter (· ≠ Path.here)) with
    | .absent _ => throw .notFound
    | .present directory =>
      match host.root.at? directory with
      | some (.directory entries) =>
        if p.getLast? = some Path.slash then throw .isDirectory
        else if Path.octetLength last > Path.maxName then throw .nameTooLong
        else
          match FileTree.lookup last entries with
          | some (.directory _) => throw .isDirectory
          | some (.link target) => placeToWrite host directory.reverse target links
          | some (.file _) | none => pure (directory ++ [last])
      | _ => throw .notDirectory

/-- Writes a file at a path, over the old content if there is any. -/
def write (host : Host) (p : Text) (content : Bytes) : Except PathFault Host := do
  Path.check p
  let found : Except SystemError (List Text) :=
    if p.isEmpty then .error .notFound
    else if Path.octetLength p > Path.maxPath then .error .nameTooLong
    else placeToWrite host host.workingDirectory.reverse p (maxLinks + 1)
  match found with
  | .ok place => .ok (host.put (.file content) place)
  | .error e => .error (.file (.system e p))

/-- The file system with a directory at the place where a path ends, if its own directory is there.
What is there already has to be a directory. -/
def makeDirectory (host : Host) (p : Text) : Except PathFault Host := do
  match ← host.locate p with
  | .absent place => pure (host.put (.directory []) place)
  | .present place =>
    match host.root.at? place with
    | some (.directory _) => pure host
    | _ => throw (.file (.system .alreadyThere p))

/-! ## Work in steps -/

/-- What is asked of the file system. -/
def ask (question : Host → Except ε α) : EStateM ε Host α := fun host =>
  match question host with
  | .ok answer => .ok answer host
  | .error fault => .error fault host

/-- A change of the file system, or none when it fails. -/
def change (f : Host → Except ε Host) : EStateM ε Host Unit := fun host =>
  match f host with
  | .ok host => .ok () host
  | .error fault => .error fault host

/-- Makes the directory at a path and those above it that are missing, in so many calls nested in
one another. What cannot be made is told by the path that was tried, and what was made by then
stays. -/
def makeMissing (names : List Text) : (calls : Nat) → EStateM PathFault Host Unit
  | 0 => throw (.tooDeep .making)
  | calls + 1 => fun host =>
    let make := change (·.makeDirectory (Path.ofNames names))
    match make host with
    | .error (.file (.system .notFound _)) _ =>
      (makeMissing names.dropLast calls >>= fun _ => make) host
    | result => result

/-- Makes the directory at a path and those above it that are missing. -/
def makeDirectories (names : List Text) : EStateM PathFault Host Unit := fun host =>
  makeMissing names host.nesting.making host

/-! ## Resolving a path -/

/-- What is left to do when a path is resolved: a name, or the end of the target of a link. -/
inductive Step
  | name (n : Text)
  | linkEnd (place : List Text)

/-- The names among the steps. -/
def namesOf (steps : List Step) : List Text :=
  steps.filterMap fun s => match s with | .name n => some n | .linkEnd _ => none

/-- A place with further names added, the name of the directory above taking one away. -/
def extend (place : List Text) (names : List Text) : List Text :=
  names.foldl (fun p n => if n = Path.above then p.drop 1 else n :: p) place

/-- Resolves names from a place, which is held last name first. `opened` are the links whose targets
are being resolved, each in a call of its own, and `known` the links that were resolved, with their
places. At a link that leads back to itself the rest is taken as it is written. -/
def resolveFrom (host : Host) (place : List Text) (opened : List (List Text))
    (known : List (List Text × List Text)) (steps : List Step) : Nat → Except PathFault (List Text)
  | 0 => .ok place.reverse
  | fuel + 1 =>
    match steps with
    | [] => .ok place.reverse
    | .linkEnd link :: rest =>
      resolveFrom host place (opened.filter (· ≠ link)) ((link, place) :: known) rest fuel
    | .name n :: rest =>
      if n = Path.above then resolveFrom host (place.drop 1) opened known rest fuel
      else do
        Path.check n
        let next := n :: place
        match host.root.at? next.reverse with
        | some (.link target) =>
          match known.lookup next with
          | some resolved => resolveFrom host resolved opened known rest fuel
          | none =>
            if next ∈ opened then .ok (extend next (namesOf rest)).reverse
            else if host.nesting.resolving ≤ opened.length then .error (.tooDeep .resolving)
            else
              resolveFrom host (if Path.isAbsolute target then [] else place) (next :: opened) known
                ((Path.names (Path.listed target)).map .name ++ .linkEnd next :: rest) fuel
        | _ => resolveFrom host next opened known rest fuel

/-- The names of the place that a path stands for, links resolved and missing names kept. Every
link is resolved once, which bounds the steps. A place that is not reached for its many links is no
place. -/
def resolve (host : Host) (p : Text) : Except PathFault (List Text) := do
  let start := if Path.isAbsolute p then [] else host.workingDirectory.reverse
  let names := Path.names p
  let place ←
    resolveFrom host start [] [] (names.map .name) (names.length + host.root.linkWeight + 1)
  match host.locate (Path.ofNames place) with
  | .error (.file (.system .tooManyLinks path)) => .error (.linkLoop path)
  | .error (.file _) | .ok _ => .ok place
  | .error fault => .error fault

end Host

end JndiScan
