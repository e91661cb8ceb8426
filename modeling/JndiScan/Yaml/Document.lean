/-
Documents: the graph of nodes that a sequence of tokens stands for. Signs and names before a node
are gathered first; a name must be new, and a reference leads back to the node of its name. A node
is numbered when it is complete, and so after its parts.
-/
import JndiScan.Yaml.Graph
import JndiScan.Yaml.Token

namespace JndiScan.Yaml

/-- A document: its nodes and the one that is the whole. -/
structure Document where
  graph : Graph
  root : NodeId

namespace Document

/-- The state of reading a document: the tokens that are left and the fault at their end, what tag
handles stand for, the complete nodes, and the named ones, of which some are not complete. A
reference to such a node stands in for it until the node is complete. -/
structure State where
  tokens : List Token
  endFault : Option Fault
  handles : List (Text × Text) := []
  graph : Graph := #[]
  named : List (Text × Option NodeId) := []
  standIns : List (NodeId × Text) := []

/-- A step of reading a document. -/
abbrev Reader := EStateM Fault State

/-- The document is malformed here. -/
def malformed : Reader α := throw .malformed

/-- The next token, none at the end. A fault at the end comes to light when the end is met. -/
def peek : Reader (Option Token) := do
  let s ← get
  match s.tokens with
  | t :: _ => pure (some t)
  | [] =>
    match s.endFault with
    | some fault => throw fault
    | none => pure none

/-- Passes the next token. -/
def pass : Reader Unit := modify fun s => { s with tokens := s.tokens.drop 1 }

/-- Passes the next token if it is the one given, and tells whether it was. -/
def passIf (t : Token) : Reader Bool := do
  if (← peek) = some t then do
    pass
    pure true
  else pure false

/-- Passes a token that has to be here. -/
def require (t : Token) : Reader Unit := do
  if !(← passIf t) then malformed

/-- Is the next token one of those given? -/
def isNext (ts : List Token) : Reader Bool := do
  match ← peek with
  | some t => pure (ts.contains t)
  | none => pure false

/-- A new node. -/
def newNode (kind : Tag) (content : Content) : Reader NodeId :=
  modifyGet fun s => (s.graph.size, { s with graph := s.graph.push { kind, content } })

/-- What stands for a node that is left out. -/
def nothing : Reader NodeId := newNode .null (.scalar [])

/-! ## Directives -/

/-- The handles that need no directive. -/
def usualHandles : List (Text × Text) := [("!", "!"), ("!!", Tag.core)]

/-- The directives before a document. There may be one of the version, which has to be the first,
and one for each handle. -/
def directives (version : Bool) (handles : List (Text × Text)) : Nat → Reader Unit
  | 0 => malformed
  | fuel + 1 => do
    match ← peek with
    | some (.directive d) => do
      pass
      match d with
      | .version major =>
        if version || major ≠ 1 then malformed else directives true handles fuel
      | .tagHandle handle expansion =>
        if (handles.lookup handle).isSome then malformed
        else directives version ((handle, expansion) :: handles) fuel
      | .other => directives version handles fuel
    | _ => modify fun s => { s with handles := handles ++ usualHandles }

/-! ## What stands before a node -/

/-- The name and the tag of a node, either of which may be missing. -/
structure Properties where
  name : Option Text := none
  tag : Option Text := none

/-- The tag that a token writes. -/
def tagOf (handle : Option Text) (suffix : Text) : Reader Text := do
  match handle with
  | none => pure suffix
  | some h =>
    match (← get).handles.lookup h with
    | some expansion => pure (expansion ++ suffix)
    | none => malformed

/-- A name if one is here. -/
def nameHere : Reader (Option Text) := do
  match ← peek with
  | some (.anchor name) => do
    pass
    pure (some name)
  | _ => pure none

/-- A tag as it is written, if one is here. -/
def tagHere : Reader (Option (Option Text × Text)) := do
  match ← peek with
  | some (.tag handle suffix) => do
    pass
    pure (some (handle, suffix))
  | _ => pure none

/-- Name and tag in either order. -/
def properties : Reader Properties := do
  let first ← nameHere
  let tag ← tagHere
  let name ← if first.isNone && tag.isSome then nameHere else pure first
  match tag with
  | some (handle, suffix) => pure { name, tag := some (← tagOf handle suffix) }
  | none => pure { name }

namespace Properties

/-- The tag, if it says anything. -/
def specificTag? (p : Properties) : Option Text := p.tag.filter (· ≠ ("!" : Text))

/-- The kind of a node with parts. -/
def kindOr (p : Properties) (usual : Tag) : Tag := (p.specificTag?.map Tag.ofText).getD usual

/-- The kind of a scalar. Its looks count when it is plain and has no tag, or when its tag says
nothing. -/
def scalarKind (p : Properties) (plain : Bool) (t : Text) : Tag :=
  p.kindOr (if plain || p.tag.isSome then Scalar.kindOf t else .str)

end Properties

/-! ## Names -/

/-- The node of a name. -/
def named (name : Text) : Reader NodeId := do
  match (← get).named.lookup name with
  | some (some n) => pure n
  | some none => do
    let n ← nothing
    modify fun s => { s with standIns := (n, name) :: s.standIns }
    pure n
  | none => malformed

/-- Gives the name of a node, if it has one, to a node that may not be complete. -/
def setName (p : Properties) (n : Option NodeId) : Reader Unit := do
  match p.name with
  | some name => modify fun s => { s with named := (name, n) :: s.named }
  | none => pure ()

/-- Begins a node. Its name must not be that of another node. -/
def beginNode (p : Properties) : Reader Unit := do
  match p.name with
  | some name => if ((← get).named.lookup name).isSome then malformed
  | none => pure ()
  setName p none

/-- A node whose content is read by `content`. -/
def nodeOf (p : Properties) (kind : Tag) (content : Reader Content) : Reader NodeId := do
  beginNode p
  let n ← newNode kind (← content)
  setName p (some n)
  pure n

/-- A scalar. -/
def scalar (p : Properties) (plain : Bool) (t : Text) : Reader NodeId :=
  nodeOf p (p.scalarKind plain t) (pure (.scalar t))

/-! ## Nodes -/

/-- Where a node stands: inside brackets, in a block, or in a block where the entries of a sequence
need no indentation. -/
inductive Context
  | flow
  | block
  | blockOrEntries
  deriving DecidableEq

mutual

/-- A node. -/
def node (context : Context) : Nat → Reader NodeId
  | 0 => malformed
  | fuel + 1 => do
    match ← peek with
    | some (.reference name) => do
      pass
      named name
    | _ => do
      let p ← properties
      let sequence (items : Reader (List NodeId)) : Reader NodeId :=
        nodeOf p (p.kindOr .seq) do pure (.sequence (← items))
      let mapping (entries : Reader (List NodeEntry)) : Reader NodeId :=
        nodeOf p (p.kindOr .map) do pure (.mapping (← entries))
      let empty : Reader NodeId :=
        if p.name.isSome || p.tag.isSome then scalar p true [] else malformed
      match ← peek with
      | some .blockEntry =>
        if context = .blockOrEntries then sequence (entries [] fuel) else empty
      | some (.scalar plain t) => do
        pass
        scalar p plain t
      | some .flowSequenceStart => do
        pass
        sequence (flowSequence true [] fuel)
      | some .flowMappingStart => do
        pass
        mapping (flowMapping true [] fuel)
      | some .blockSequenceStart =>
        if context ≠ .flow then do
          pass
          sequence (blockSequence [] fuel)
        else empty
      | some .blockMappingStart =>
        if context ≠ .flow then do
          pass
          mapping (blockMapping [] fuel)
        else empty
      | _ => empty

/-- A node, unless one of the tokens that may follow a missing one is next. -/
def nodeUnless (enders : List Token) (context : Context) : Nat → Reader NodeId
  | 0 => malformed
  | fuel + 1 => do
    if ← isNext enders then nothing else node context fuel

/-- The entries of a sequence up to the end of its block, after those in `done`, which are held
last first. -/
def blockSequence (done : List NodeId) : Nat → Reader (List NodeId)
  | 0 => malformed
  | fuel + 1 => do
    if ← passIf .blockEntry then do
      let n ← nodeUnless [.blockEntry, .blockEnd] .block fuel
      blockSequence (n :: done) fuel
    else do
      require .blockEnd
      pure done.reverse

/-- The entries of a sequence without a block of its own. -/
def entries (done : List NodeId) : Nat → Reader (List NodeId)
  | 0 => malformed
  | fuel + 1 => do
    if ← passIf .blockEntry then do
      let n ← nodeUnless [.blockEntry, .key, .value, .blockEnd] .block fuel
      entries (n :: done) fuel
    else pure done.reverse

/-- The entries of a mapping up to the end of its block. -/
def blockMapping (done : List NodeEntry) : Nat → Reader (List NodeEntry)
  | 0 => malformed
  | fuel + 1 => do
    let enders : List Token := [.key, .value, .blockEnd]
    if ← passIf .key then do
      let k ← nodeUnless enders .blockOrEntries fuel
      let v ← if ← passIf .value then nodeUnless enders .blockOrEntries fuel else nothing
      blockMapping ((k, v) :: done) fuel
    else do
      require .blockEnd
      pure done.reverse

/-- The items of a sequence up to its closing bracket. An item with a key is a mapping of one
entry. -/
def flowSequence (first : Bool) (done : List NodeId) : Nat → Reader (List NodeId)
  | 0 => malformed
  | fuel + 1 => do
    if ← passIf .flowSequenceEnd then pure done.reverse
    else do
      if !first then require .flowEntry
      if ← passIf .flowSequenceEnd then pure done.reverse
      else if ← passIf .key then do
        let k ← nodeUnless [.value, .flowEntry, .flowSequenceEnd] .flow fuel
        let v ←
          if ← passIf .value then nodeUnless [.flowEntry, .flowSequenceEnd] .flow fuel
          else nothing
        let n ← newNode .map (.mapping [(k, v)])
        flowSequence false (n :: done) fuel
      else do
        let n ← node .flow fuel
        flowSequence false (n :: done) fuel

/-- The entries of a mapping up to its closing bracket. An item without a key is a key without a
value. -/
def flowMapping (first : Bool) (done : List NodeEntry) : Nat → Reader (List NodeEntry)
  | 0 => malformed
  | fuel + 1 => do
    if ← passIf .flowMappingEnd then pure done.reverse
    else do
      if !first then require .flowEntry
      if ← passIf .flowMappingEnd then pure done.reverse
      else if ← passIf .key then do
        let k ← nodeUnless [.value, .flowEntry, .flowMappingEnd] .flow fuel
        let v ←
          if ← passIf .value then nodeUnless [.flowEntry, .flowMappingEnd] .flow fuel
          else nothing
        flowMapping false ((k, v) :: done) fuel
      else do
        let k ← node .flow fuel
        let v ← nothing
        flowMapping false ((k, v) :: done) fuel

end

/-! ## Documents -/

/-- Is a directive or the start of a document next? -/
def startsDocument : Option Token → Bool
  | some (.directive _) | some .documentStart => true
  | _ => false

/-- The content of a document that was begun by its sign. -/
def content (fuel : Nat) : Reader NodeId := do
  match ← peek with
  | none | some (.directive _) | some .documentStart | some .documentEnd => nothing
  | some _ => node .block fuel

/-- Passes ends of documents. -/
def passEnds : Nat → Reader Unit
  | 0 => malformed
  | fuel + 1 => do
    if ← passIf .documentEnd then passEnds fuel

/-- The one document of a stream, if there is one. -/
def single (fuel : Nat) : Reader (Option NodeId) := do
  match ← peek with
  | none => pure none
  | t => do
    let n ←
      if startsDocument t then do
        directives false [] fuel
        require .documentStart
        content fuel
      else do
        modify fun s => { s with handles := usualHandles }
        node .block fuel
    passEnds fuel
    match ← peek with
    | none => pure (some n)
    | some _ => do
      directives false [] fuel
      malformed

/-- The graph that was read, with complete nodes in place of those that stand in for them. -/
def State.completeGraph (s : State) : Graph :=
  let complete (n : NodeId) : NodeId :=
    ((s.standIns.lookup n).bind fun name => (s.named.lookup name).join).getD n
  if s.standIns.isEmpty then s.graph else s.graph.redirect complete

/-- The document in a source, if there is one. -/
def ofSource (source : Source) : Except Fault (Option Document) :=
  let (tokens, endFault) := Token.ofSource source
  match single (2 * tokens.length + 4) { tokens, endFault } with
  | .ok root s => .ok (root.map fun root => { graph := s.completeGraph, root })
  | .error fault _ => .error fault

end Document

end JndiScan.Yaml
