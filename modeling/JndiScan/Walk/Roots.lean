/-
The roots of a walk: one file, or all files below a directory. The files of a directory come in
the order of their names, and after them its directories, each as a whole, in the order of
theirs. Links to directories are neither followed nor files. A directory that cannot be listed
stands for itself.
-/
import JndiScan.Container
import JndiScan.Walk.Run

namespace JndiScan.Walk

/-- What a directory holds under a name, as a walk lists it: a file, a directory with the roots of
the walk in it, or nothing to go into. -/
inductive Listed
  | file (path : Text)
  | directory (roots : List (Root Entry))
  | skipped

/-- The roots in a directory in order, from what it holds. -/
def ordered (listed : List (Text × Listed)) : List (Root Entry) :=
  let sorted := Text.sortBy Prod.fst listed
  let files := sorted.filterMap fun e => match e.2 with | .file p => some p | _ => none
  files.map (fun p => .entry (.ofPath p)) ++
    sorted.flatMap fun e => match e.2 with | .directory roots => roots | _ => []

/-- The roots of a directory at a place that holds some. A directory that the system does not list
is told, and a fault ends the walk where the calls that list directories are nested too deep. -/
def rootsOf (host : Host) (calls : Nat) (place : List Text) (inside : List (Root Entry)) :
    List (Root Entry) :=
  if calls = 0 then [.faulty (.path (.tooDeep .listing))]
  else
    match host.refusal? place with
    | some error => [.unlistable (.system (.system error (Path.ofNames place)))]
    | none => inside

mutual

/-- What a tree at a place is for a listing, which may make so many calls nested in one another. -/
def listed (host : Host) (calls : Nat) (place : List Text) : FileTree → Listed
  | .file _ => .file (Path.ofNames place)
  | .link _ =>
    match host.find (Path.ofNames place) with
    | .ok (.directory _) => .skipped
    | _ => .file (Path.ofNames place)
  | .directory entries =>
    .directory (rootsOf host calls place (ordered (listedEntries host (calls - 1) place entries)))

/-- The entries of a directory for a listing. -/
def listedEntries (host : Host) (calls : Nat) (place : List Text) :
    List (Text × FileTree) → List (Text × Listed)
  | [] => []
  | (name, t) :: rest =>
    let name := Path.listed name
    (name, listed host calls (place ++ [name]) t) :: listedEntries host calls place rest

end

/-- The roots of a walk that starts at a path. -/
def roots (host : Host) (path : Text) : Except PathFault (List (Root Entry)) := do
  let place ← host.resolve path
  let resolved := Path.ofNames place
  if ← host.isFile? resolved then pure [.entry (.ofPath resolved)]
  else
    match host.find resolved with
    | .ok (.directory entries) =>
      let calls := host.nesting.listing
      pure (rootsOf host calls place (ordered (listedEntries host (calls - 1) place entries)))
    | .ok _ => pure [.unlistable (.system (.system .notDirectory resolved))]
    | .error (.file error) => pure [.unlistable (.system error)]
    | .error fault => throw fault

/-- The state of a walk that starts at a path. -/
def start (path : Text) (tally : Tally) (session : Session) :
    Except PathFault (State Session Entry Position) := do
  pure { world := session, tally, roots := ← roots session.host path }

/-- Walks from a path and makes something of each occurrence. -/
def foldPath (d : Decoding) (l : Limits) (onFound : α → Occurrence → Console → α × Console)
    (wanted : Option Nat) (value : α) (path : Text) (tally : Tally) (session : Session) :
    Outcome α Session :=
  match start path tally session with
  | .ok s => s.fold d.decoder l onFound wanted value
  | .error fault => { value, tally, world := session, fault := some (.path fault) }

/-- The occurrences below a path, in order, as far as they are wanted. -/
def occurrencesAt (d : Decoding) (l : Limits) (wanted : Option Nat) (path : Text) (tally : Tally)
    (session : Session) : Outcome (List Occurrence) Session :=
  match start path tally session with
  | .ok s => occurrences d.decoder l wanted s
  | .error fault => { value := [], tally, world := session, fault := some (.path fault) }

end JndiScan.Walk
