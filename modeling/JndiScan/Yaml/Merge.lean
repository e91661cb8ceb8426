/-
Merging: an entry whose key says so brings the entries of the mappings that are its value. What is
brought comes before the entries of the mapping itself, so that these count. A mapping is merged
when its entries are needed, and stays so for everything else that it is part of.
-/
import JndiScan.Yaml.Graph

namespace JndiScan.Yaml.Merge

/-- A step that may change a graph. -/
abbrev Change := EStateM Fault Graph

/-- Something that is read off the graph. -/
def look (f : Graph → α) : Change α := return f (← get)

/-- The entries that the value of a merging key brings: those of a mapping, or of the mappings of a
sequence, the last of which come first. `merged` merges a mapping and gives its entries. -/
def brought (merged : NodeId → Change (List NodeEntry)) (v : NodeId) :
    Change (List NodeEntry) := do
  match ← look (·.content v) with
  | .mapping _ => merged v
  | .sequence items => do
    let parts ← items.mapM fun n => do
      if ← look (·.isMapping n) then merged n else throw .malformed
    pure parts.reverse.flatten
  | .scalar _ => throw .malformed

/-- Goes through the entries of a mapping after those in `own`, which are held last first, and puts
the entries that are `brought` before its own. When a mapping that is merged into this one is part
of it, this one may come to be merged in between; what it holds then is kept. The key of the value
that a mapping stands for is a text among other keys. -/
def mergeEntries (merged : NodeId → Change (List NodeEntry)) (n : NodeId)
    (found own : List NodeEntry) : List NodeEntry → Change Unit
  | [] => modify (·.setEntries n (found ++ own.reverse))
  | (k, v) :: rest => do
    match ← look (·.kind k) with
    | .merge => do
      let left := own.reverse ++ rest
      modify (·.setEntries n left)
      let found := found ++ (← brought merged v)
      let now ← look (·.entries n)
      if now = left then mergeEntries merged n found own rest
      else modify (·.setEntries n (found ++ now))
    | .value => do
      modify (·.setKind k .str)
      mergeEntries merged n found ((k, v) :: own) rest
    | _ => mergeEntries merged n found ((k, v) :: own) rest

/-- Merges a mapping and gives its entries. A merging key is gone before its value is merged, so
`fuel` need not exceed the number of entries. -/
def merge : (fuel : Nat) → NodeId → Change (List NodeEntry)
  | 0, n => look (·.entries n)
  | fuel + 1, n => do
    mergeEntries (merge fuel) n [] [] (← look (·.entries n))
    look (·.entries n)

/-- The entries of a mapping after merging. -/
def entries (n : NodeId) : Change (List NodeEntry) := do
  merge ((← look Graph.entryCount) + 1) n

end JndiScan.Yaml.Merge
