/-
The nodes of a document as a graph. A node is told by its number; references lead to the nodes that
they name, so that a node may be part of several others, and even of itself.
-/
import JndiScan.Yaml.Scalar

namespace JndiScan.Yaml

/-- The number of a node. -/
abbrev NodeId := Nat

/-- The key and the value of an entry. -/
abbrev NodeEntry := NodeId × NodeId

/-- What a node holds. -/
inductive Content
  | scalar (t : Text)
  | sequence (items : List NodeId)
  | mapping (entries : List NodeEntry)
  deriving DecidableEq, Repr

/-- A node: its kind, and what it holds whatever its kind. -/
structure Node where
  kind : Tag
  content : Content
  deriving DecidableEq, Repr

/-- Nodes by their numbers. -/
abbrev Graph := Array Node

/-- Content with other nodes in place of its parts. -/
def Content.mapNodes (f : NodeId → NodeId) : Content → Content
  | scalar t => scalar t
  | sequence items => sequence (items.map f)
  | mapping entries => mapping (entries.map fun (k, v) => (f k, f v))

namespace Graph

/-- The kind of a node. -/
def kind (g : Graph) (n : NodeId) : Tag := (g[n]?.map Node.kind).getD .unknown

/-- The content of a node. -/
def content (g : Graph) (n : NodeId) : Content := (g[n]?.map Node.content).getD (.scalar [])

/-- The entries of a mapping; other nodes have none. -/
def entries (g : Graph) (n : NodeId) : List NodeEntry :=
  match g.content n with
  | .mapping entries => entries
  | _ => []

/-- Is a node a mapping? -/
def isMapping (g : Graph) (n : NodeId) : Bool :=
  match g.content n with
  | .mapping _ => true
  | _ => false

/-- The graph with other entries of a mapping. -/
def setEntries (g : Graph) (n : NodeId) (entries : List NodeEntry) : Graph :=
  g.modify n fun node => { node with content := .mapping entries }

/-- The graph with another kind of a node. -/
def setKind (g : Graph) (n : NodeId) (kind : Tag) : Graph :=
  g.modify n fun node => { node with kind }

/-- The number of entries of all mappings. -/
def entryCount (g : Graph) : Nat :=
  g.foldl (fun count node =>
    match node.content with
    | .mapping entries => count + entries.length
    | _ => count) 0

/-- The graph with other nodes in place of some, wherever they are parts. -/
def redirect (g : Graph) (f : NodeId → NodeId) : Graph :=
  g.map fun node => { node with content := node.content.mapNodes f }

/-- The text of the scalar that a node stands for: its own, or that of the value of the mapping
under the key that says so. `fuel` bounds the number of nodes that stand for others. -/
def scalarText (g : Graph) : (fuel : Nat) → NodeId → Except Fault Text
  | 0, _ => .error .bottomless
  | fuel + 1, n =>
    match g.content n with
    | .scalar t => .ok t
    | .sequence _ => .error .malformed
    | .mapping entries =>
      match entries.find? fun e => g.kind e.1 = .value with
      | some (_, v) => g.scalarText fuel v
      | none => .error .malformed

/-- The value of a node whose kind is that of a scalar. -/
def scalarValue (g : Graph) (n : NodeId) : Except Fault Value := do
  let t ← g.scalarText (g.size + 1) n
  if g.kind n = .timestamp && g.isMapping n then throw .instantParts
  Scalar.value (g.kind n) n t

end Graph

end JndiScan.Yaml
