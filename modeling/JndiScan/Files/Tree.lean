/-
Trees of files, links and directories. A directory holds its entries in the order in which the
system lists them. Places in a tree are lists of names from its root on; links are not followed
here.
-/
import JndiScan.Bytes
import JndiScan.Files.Path

namespace JndiScan

/-- A file, a symbolic link with its target, or a directory. -/
inductive FileTree
  | file (content : Bytes)
  | link (target : Text)
  | directory (entries : List (Text × FileTree))
  deriving Repr, BEq

namespace FileTree

instance : Inhabited FileTree := ⟨directory []⟩

/-- What is held under a name. -/
def lookup (name : Text) (entries : List (Text × FileTree)) : Option FileTree :=
  (entries.find? fun e => Path.isSameName e.1 name).map (·.2)

/-- What a directory holds under a name. -/
def child? (name : Text) : FileTree → Option FileTree
  | directory entries => lookup name entries
  | _ => none

/-- What stands at a place. -/
def at? : List Text → FileTree → Option FileTree
  | [], t => some t
  | name :: rest, t => (t.child? name).bind (at? rest)

/-- The entries of a directory with one set: in its place if the name is there, else at the end. -/
def setEntry (name : Text) (t : FileTree) : List (Text × FileTree) → List (Text × FileTree)
  | [] => [(name, t)]
  | (n, old) :: rest =>
    if Path.isSameName n name then (n, t) :: rest else (n, old) :: setEntry name t rest

/-- The tree `t` with `new` put at a place, the directory of which must be there. -/
def put (new : FileTree) : (place : List Text) → (t : FileTree) → FileTree
  | [], _ => new
  | name :: rest, directory entries =>
    match lookup name entries with
    | some old => directory (setEntry name (put new rest old) entries)
    | none => if rest.isEmpty then directory (setEntry name new entries) else directory entries
  | _ :: _, t => t

/-- The tree without what stands at a place. -/
def remove : List Text → FileTree → FileTree
  | [], t => t
  | [name], directory entries => directory (entries.filter (!Path.isSameName ·.1 name))
  | name :: rest, directory entries =>
    match lookup name entries with
    | some old => directory (setEntry name (remove rest old) entries)
    | none => directory entries
  | _ :: _, t => t

mutual

/-- How deep directories are nested in a tree, itself among them if it is one. -/
def depth : FileTree → Nat
  | file _ | link _ => 0
  | directory entries => depths entries + 1

/-- The same of the deepest entry of a directory. -/
def depths : List (Text × FileTree) → Nat
  | [] => 0
  | (_, t) :: rest => max (depth t) (depths rest)

end

mutual

/-- The number of links in a tree and of names in their targets. -/
def linkWeight : FileTree → Nat
  | file _ => 0
  | link target => target.length + 2
  | directory entries => linkWeights entries

/-- The same of the entries of a directory. -/
def linkWeights : List (Text × FileTree) → Nat
  | [] => 0
  | (_, t) :: rest => linkWeight t + linkWeights rest

end

end FileTree

end JndiScan
