/-
Where a class was found: a file, and the names of the entries that lead from it through nested
containers to the class.
-/
import JndiScan.Text.Basic

namespace JndiScan

/-- The place of one occurrence: the file on disk, the entry names below it, innermost last, and
whether a conversion from Dalvik code lies on the way. -/
structure Provenance where
  root : Text
  segments : List Text := []
  converted : Bool := false
  deriving DecidableEq, Repr

namespace Provenance

/-- The place of an entry of the container at this place. -/
def child (p : Provenance) (name : Text) (converted : Bool := false) : Provenance :=
  { p with segments := p.segments ++ [name], converted := p.converted || converted }

/-- The number of containers around the entry. -/
def depth (p : Provenance) : Nat := p.segments.length

/-- The file and the entry names. -/
def parts (p : Provenance) : List Text := p.root :: p.segments

/-- The name of the innermost container that holds the entry, the file when there is none. -/
def container (p : Provenance) : Text :=
  if 2 ≤ p.segments.length then p.segments.getD (p.segments.length - 2) [] else p.root

/-- A place as it is shown. -/
def text (p : Provenance) : Text :=
  Text.joinWith " -> " p.parts ++ (if p.converted then (" (converted from dex)" : Text) else [])

end Provenance

end JndiScan
