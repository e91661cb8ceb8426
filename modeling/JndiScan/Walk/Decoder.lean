/-
What a walk asks of a decoder. Entries, containers, the positions in opened containers and the
world that all of them work on are left open, so that what holds of walks holds whatever the
decoder does, short of it not returning.
-/
import JndiScan.EntryKind
import JndiScan.Failure
import JndiScan.Pool

namespace JndiScan.Walk

/-- What an entry turns out to be: a class, a container or nothing of interest. -/
inductive Decoded (container : Type)
  | definition (o : Occurrence)
  | container (kind : EntryKind) (place : Provenance) (contents : container)
  | unrecognized (name : Text)

/-- A decoder. The position in a container gives the entries one by one, until there are no more,
until it fails, or until it is closed; it is closed even if that raises a fault. -/
structure Decoder (world entry container position : Type) where
  placeOf : entry → Provenance
  decode : entry → EStateM Trouble world (Decoded container)
  enter : container → EStateM Trouble world position
  pull : position → EStateM Trouble world (Option (entry × position))
  close : position → world → world
  closeFault? : position → world → Option Fault

end JndiScan.Walk
