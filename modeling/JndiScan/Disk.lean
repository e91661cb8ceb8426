/-
The disk as a run of the program sees it. What the run asks for is read before it begins: the whole
of its target, and of other paths what they lead to. What it leaves is written after it has ended.
-/
import JndiScan.Files.Host
import JndiScan.Text.Utf8

namespace JndiScan.Disk

/-- The entry of the disk at a place. -/
def entryAt (place : List Text) : IO.FS.DirEntry :=
  ⟨(Path.ofNames place.dropLast).toString, (place.getLast?.getD []).toString⟩

/-- The kind of what stands at a place, links not followed. -/
def kind? (place : List Text) : IO (Option IO.FS.FileType) := do
  try pure (some (← (entryAt place).path.symlinkMetadata).type) catch _ => pure none

/-- The content of the file at a place. -/
def content (place : List Text) : IO Bytes := do
  pure (← IO.FS.readBinFile (entryAt place).path).toList

/-- The place that the link at a place leads to in the end, if it leads to anything. -/
def target? (place : List Text) : IO (Option (List Text)) := do
  try
    let path ← IO.FS.realPath (entryAt place).path
    pure (some (Path.names (.ofString path.toString)))
  catch _ => pure none

/-- A target that no directory holds, for links that lead to nothing. -/
def nowhere : Text := [.ofNat 0]

/-- The link that leads to a place. -/
def linkTo (target : Option (List Text)) : FileTree :=
  .link ((target.map Path.ofNames).getD nowhere)

/-- What stands at a place, with all that is below it. The places that its links lead to are
gathered. -/
partial def readTree (place : List Text) : StateT (List (List Text)) IO (Option FileTree) := do
  match ← kind? place with
  | some .file => pure (some (.file (← content place)))
  | some .symlink => do
    let target ← target? place
    modify (target.toList ++ ·)
    pure (some (linkTo target))
  | some .dir => do
    let entries ← (entryAt place).path.readDir
    let children ← entries.toList.filterMapM fun entry => do
      let name : Text := .ofString entry.fileName
      pure ((← readTree (place ++ [name])).map fun t => (name, t))
    pure (some (.directory children))
  | _ => pure none

/-- The host with what is met when names are followed from a place on. -/
partial def reach (place names : List Text) (host : Host) : IO Host := do
  match names with
  | [] => pure host
  | name :: rest =>
    if name = Path.above then reach place.dropLast rest host
    else
      let next := place ++ [name]
      match ← kind? next with
      | some .dir =>
        let known := (host.root.at? next).isSome
        reach next rest (if known then host else host.put (.directory []) next)
      | some .symlink => do
        let target ← target? next
        let host := host.put (linkTo target) next
        match target with
        | some target => reach [] (target ++ rest) host
        | none => pure host
      | some .file =>
        if (host.root.at? next).isSome then pure host
        else pure (host.put (.file (← content next)) next)
      | _ => pure host

/-- Where a path starts. -/
def startOf (host : Host) (path : Text) : List Text :=
  if Path.isAbsolute path then [] else host.workingDirectory

/-- The host with what a path leads to. -/
def withPath (host : Host) (path : Text) : IO Host :=
  reach (startOf host path) (Path.names path) host

/-- The host with what a path leads to and all that is below it. -/
def withTree (host : Host) (path : Text) : IO Host := do
  let host ← withPath host path
  match host.locate path with
  | .ok (.present place) => do
    let (tree, targets) ← (readTree place).run []
    let host := (tree.map (host.put · place)).getD host
    targets.foldlM (fun host target => reach [] target host) host
  | _ => pure host

/-- A host that holds nothing but the way to the working directory. -/
def emptyHost : IO Host := do
  let names := Path.names (.ofString (← IO.currentDir).toString)
  reach [] names { root := .directory [], workingDirectory := names }

/-- The place of a directory that is nowhere on the disk, for what a run holds for a while. -/
def freePlace : IO (List Text) := do
  let path ← IO.FS.createTempDir
  IO.FS.removeDir path
  pure (Path.names (.ofString path.toString))

/-- Writes the file that a path leads to where a run has changed it. -/
def save (before after : Host) (path : Text) : IO Unit := do
  match after.read path with
  | .ok new =>
    if (before.read path).toOption ≠ some new then
      IO.FS.writeBinFile path.toString new.toByteArray
  | .error _ => pure ()

end JndiScan.Disk
