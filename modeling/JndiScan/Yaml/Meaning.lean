/-
What the nodes of a document mean. Scalars are read when they are met; a collection is begun when it
is met and filled after all those begun before it, so that a fault which lies less deep comes to
light first. Each node means one thing, wherever it is part.
-/
import JndiScan.Rules.MemberOrder
import JndiScan.Yaml.Merge

namespace JndiScan.Yaml.Meaning

/-! ## Things -/

/-- What a node means, its parts told by their nodes. The keys of mappings are values. -/
inductive Thing
  | value (v : Value)
  | list (items : List NodeId)
  /-- Pairs, each with a label of its own. -/
  | pairs (items : List (Nat × NodeEntry))
  | mapping (entries : List (Value × NodeId))
  | members (items : List Value)
  deriving Repr

/-- The state of telling what nodes mean: the graph, the things told so far, the collections that
were begun, last first, and the label of the next pair. -/
structure State where
  graph : Graph
  things : Array (Option Thing)
  begun : List NodeId := []
  nextLabel : Nat

/-- A step of telling what nodes mean. -/
abbrev Teller := EStateM Fault State

/-- The document is malformed here. -/
def malformed : Teller α := throw .malformed

/-- Something that is read off the graph. -/
def look (f : Graph → α) : Teller α := return f (← get).graph

/-- The entries of a mapping after merging. -/
def mergedEntries (n : NodeId) : Teller (List NodeEntry) := fun s =>
  match Merge.entries n s.graph with
  | .ok entries graph => .ok entries { s with graph }
  | .error fault graph => .error fault { s with graph }

/-- Says what a node means. -/
def tell (n : NodeId) (t : Thing) : Teller Unit :=
  modify fun s => { s with things := s.things.setIfInBounds n (some t) }

/-- A new label. -/
def newLabel : Teller Nat :=
  modifyGet fun s => (s.nextLabel, { s with nextLabel := s.nextLabel + 1 })

/-- Begins a collection. -/
def beginWith (n : NodeId) (t : Thing) : Teller Unit := do
  tell n t
  modify fun s => { s with begun := n :: s.begun }

/-- What a node means as far as it is known. -/
def thing? (n : NodeId) : Teller (Option Thing) := return ((← get).things[n]?).join

/-- Meets a node. -/
def meet (n : NodeId) : Teller Unit := do
  if (← thing? n).isNone then
    match ← look (·.kind n) with
    | .seq => beginWith n (.list [])
    | .omap | .pairs => beginWith n (.pairs [])
    | .map => beginWith n (.mapping [])
    | .set => beginWith n (.members [])
    | .merge | .value | .unknown => malformed
    | .null | .bool | .int | .float | .binary | .timestamp | .str =>
      match ← look (·.scalarValue n) with
      | .ok v => tell n (.value v)
      | .error fault => throw fault

/-! ## Filling collections -/

/-- The value of a key, which must not be a collection. -/
def key (n : NodeId) : Teller Value := do
  meet n
  match ← thing? n with
  | some (.value v) => pure v
  | _ => malformed

/-- The pair that a mapping of one entry stands for. -/
def pair (n : NodeId) : Teller (Nat × NodeEntry) := do
  if !(← look (·.isMapping n)) then malformed
  else
    match ← look (·.entries n) with
    | [(k, v)] => do
      meet k
      meet v
      pure (← newLabel, k, v)
    | _ => malformed

/-- The entries of a mapping: the later of two with one key counts. -/
def mappingEntries (n : NodeId) : Teller (List (Value × NodeId)) := do
  if !(← look (·.isMapping n)) then malformed
  else
    (← mergedEntries n).foldlM (fun found (k, v) => do
      let k ← key k
      meet v
      pure (Value.insert k v found)) []

/-- The items of a sequence. -/
def items (n : NodeId) : Teller (List NodeId) := do
  match ← look (·.content n) with
  | .sequence items => pure items
  | _ => malformed

/-- Fills a collection that was begun. -/
def fill (n : NodeId) : Teller Unit := do
  match ← look (·.kind n) with
  | .seq => do
    let items ← items n
    items.forM meet
    tell n (.list items)
  | .omap | .pairs => do tell n (.pairs (← (← items n).mapM pair))
  | .set => do tell n (.members (Value.inMemberOrder ((← mappingEntries n).map (·.1))))
  | _ => do tell n (.mapping (← mappingEntries n))

/-- Fills all collections that were begun, and those that are begun then. Every round fills at least
one, so `fuel` need not exceed the number of nodes. -/
def fillAll : (fuel : Nat) → Teller Unit
  | 0 => pure ()
  | fuel + 1 => do
    match (← get).begun with
    | [] => pure ()
    | begun => do
      modify fun s => { s with begun := [] }
      begun.reverse.forM fill
      fillAll fuel

/-- What the nodes of a graph mean that are parts of one. -/
def things (g : Graph) (root : NodeId) : Except Fault (Array (Option Thing)) :=
  let start : State :=
    { graph := g, things := Array.replicate g.size none, nextLabel := g.size }
  let run : Teller Unit := do
    meet root
    fillAll (g.size + 1)
  match run start with
  | .ok () s => .ok s.things
  | .error fault _ => .error fault

/-! ## Values -/

namespace Thing

/-- The value of a thing by the values of its parts, or none if a part has none. -/
def closed? (part : NodeId → Option Value) : Thing → Option Value
  | value v => some v
  | list items => (items.mapM part).map .list
  | pairs items =>
    let pair (e : NodeEntry) : Option Value := return .pair (← part e.1) (← part e.2)
    (items.mapM fun i => pair i.2).map .list
  | mapping entries =>
    let entry (e : Value × NodeId) : Option (Value × Value) := (part e.2).map (e.1, ·)
    (entries.mapM entry).map .mapping
  | members items => some (.members items)

/-- The values that the thing of a node adds to a web, by the values of its parts: its own, with the
number of the node as the label, and those of its pairs. -/
def webValues (n : NodeId) (part : NodeId → Value) : Thing → List (Nat × Value)
  | value v => [(n, v)]
  | list items => [(n, .list (items.map part))]
  | pairs items =>
    (n, .list (items.map fun (label, _) => .part label .pair))
      :: items.map fun (label, k, v) => (label, .pair (part k) (part v))
  | mapping entries => [(n, .mapping (entries.map fun (k, v) => (k, part v)))]
  | members items => [(n, .members items)]

/-- The shape of a thing. -/
def shape : Thing → Shape
  | mapping _ => .mapping
  | _ => .list

end Thing

/-- The values of the nodes that are not part of themselves and have no such part. The parts of a
node have smaller numbers than the node unless it is part of itself. -/
def closedValues (things : Array (Option Thing)) : Array (Option Value) :=
  things.foldl (fun values t =>
    let v := t.bind (Thing.closed? fun n => (values[n]?).join)
    values.push v) #[]

/-- The value of a node. All nodes that are part of themselves or have such a part make one web, so
that the value of each of them is there once. -/
def valueOf (things : Array (Option Thing)) (root : NodeId) : Value :=
  let closed := closedValues things
  let part (n : NodeId) : Value :=
    match (closed[n]?).join, (things[n]?).join with
    | some v, _ => v
    | none, some t => .part n t.shape
    | none, none => .null
  let web := (List.range things.size).flatMap fun n =>
    match (closed[n]?).join, (things[n]?).join with
    | none, some t => t.webValues n part
    | _, _ => []
  .ofPart web (part root)

/-- The value of a node of a graph. -/
def value (g : Graph) (root : NodeId) : Except Fault Value := do
  pure (valueOf (← things g root) root)

end JndiScan.Yaml.Meaning
