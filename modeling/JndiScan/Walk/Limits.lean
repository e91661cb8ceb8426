/-
The limits of a walk, and what is said when one is reached.
-/
import JndiScan.Failure
import JndiScan.Limit

namespace JndiScan.Walk

/-- How deep containers may be nested, and how many entries may be visited. -/
structure Limits where
  maxDepth : Limit := .atMost 16
  maxEntries : Limit := .atMost 1000000
  deriving DecidableEq, Repr

/-- How many entries may be visited. A negative limit allows none, and so does one that was not
said. -/
def Limits.budget (l : Limits) : Nat :=
  match l.maxEntries with
  | .atMost n => n.toNat
  | .unsaid => 0

/-- The usual limit of the size of an entry. -/
def defaultEntrySize : Limit := .atMost 536870912

/-- A limit that was reached, perhaps with its value. -/
structure LimitReached where
  name : Text
  limit : Option Int
  deriving DecidableEq, Repr

namespace LimitReached

/-- The depth limit. -/
def depth (limit : Int) : LimitReached := ⟨"max_depth", some limit⟩

/-- The limit of entries. -/
def entries (limit : Int) : LimitReached := ⟨"max_entries", some limit⟩

/-- The name of a limit with its value. -/
def setting (r : LimitReached) : Text :=
  match r.limit with
  | some n => r.name ++ "=" ++ .ofInt n
  | none => r.name

/-- What is said of a limit that was reached at a place. -/
def message (r : LimitReached) (place : Text) : Text := place.saidOf (r.setting ++ " exceeded")

end LimitReached

end JndiScan.Walk
