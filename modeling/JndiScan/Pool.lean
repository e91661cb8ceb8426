/-
The classes of a scan, keyed by the slash form of their names. The first definition met under a
key is kept; every later occurrence adds its place only.
-/
import JndiScan.ClassDefinition
import JndiScan.ClassName
import JndiScan.Provenance
import Std.Data.TreeMap

namespace JndiScan

/-- A class as it was found at a place. -/
structure Occurrence where
  definition : ClassDefinition
  place : Provenance
  deriving DecidableEq, Repr

/-- A class of the pool: its first definition, and the places it was seen at, each once. -/
structure PoolEntry where
  definition : ClassDefinition
  places : List Provenance
  deriving DecidableEq, Repr

namespace PoolEntry

/-- The name in the definition, as it was written there. -/
def name (e : PoolEntry) : Text := e.definition.name

/-- The places in the order of their texts. -/
def sortedPlaces (e : PoolEntry) : List Provenance := Text.sortBy Provenance.text e.places

/-- The entry with one more place. -/
def addPlace (e : PoolEntry) (p : Provenance) : PoolEntry :=
  if p ∈ e.places then e else { e with places := e.places ++ [p] }

end PoolEntry

/-- The entries by their keys. -/
structure Pool where
  entries : Std.TreeMap Text PoolEntry := {}

namespace Pool

/-- The key of an occurrence. -/
def keyOf (o : Occurrence) : Text := ClassName.slashForm o.definition.name

/-- The pool with one more occurrence, and whether its key is new. -/
def accept (pool : Pool) (o : Occurrence) : Bool × Pool :=
  let key := keyOf o
  match pool.entries[key]? with
  | none => (true, ⟨pool.entries.insert key ⟨o.definition, [o.place]⟩⟩)
  | some e => (false, ⟨pool.entries.insert key (e.addPlace o.place)⟩)

/-- The pool of a sequence of occurrences. -/
def ofOccurrences (os : List Occurrence) : Pool :=
  os.foldl (fun pool o => (pool.accept o).2) {}

/-- The number of keys. -/
def size (pool : Pool) : Nat := pool.entries.size

/-- The keys in increasing order. -/
def keys (pool : Pool) : List Text := pool.entries.keys

/-- The entries in the order of their keys. -/
def toList (pool : Pool) : List PoolEntry := pool.entries.values

/-- The entry that a name leads to, in whatever form the name is given. -/
def get? (pool : Pool) (name : Text) : Option PoolEntry := pool.entries[ClassName.slashForm name]?

/-- Does a name lead to an entry? -/
def contains (pool : Pool) (name : Text) : Bool := pool.entries.contains (ClassName.slashForm name)

/-- The entries whose keys end in the segments of `tail`, in the order of their keys. -/
def withSuffix (pool : Pool) (tail : Text) : List PoolEntry :=
  (pool.entries.toList.filter fun e => ClassName.hasSuffix e.1 tail).map (·.2)

end Pool

end JndiScan
