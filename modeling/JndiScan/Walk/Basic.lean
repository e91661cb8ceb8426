/-
Depth-first walks through files and the containers nested in them. Opened containers are kept on a
stack, so that nesting is bounded by a limit of its own. Failures are told and kept, and cost
nothing but the entry or the rest of the container they arise in. A limit that is reached cuts the
walk short and marks its result as incomplete.
-/
import JndiScan.Console
import JndiScan.Diagnostic
import JndiScan.Walk.Decoder
import JndiScan.Walk.Limits

namespace JndiScan.Walk

/-! ## What a walk keeps -/

/-- What was met so far, over all walks that share it. -/
structure Tally where
  entriesSeen : Nat := 0
  incomplete : Bool := false
  diagnostics : Array Diagnostic := #[]
  console : Console

namespace Tally

/-- A failure at a location is kept and told. -/
def addFailure (t : Tally) (location : Text) (failure : Failure) : Tally :=
  { t with
    diagnostics := t.diagnostics.push { location, message := failure.reason }
    console := t.console.warn ("failed to read entry=" ++ location ++ " error=" ++ failure.reason) }

/-- A limit that was reached at a place is kept and told. -/
def addLimit (t : Tally) (place : Provenance) (r : LimitReached) : Tally :=
  { t with
    incomplete := true
    diagnostics := t.diagnostics.push
      { location := place.text, message := r.message place.text, fatal := true }
    console := t.console.warn ("limit reached entry=" ++ place.text ++ " " ++ r.setting
      ++ "; results may be incomplete") }

/-- A detail. -/
def debug (t : Tally) (message : Text) : Tally := { t with console := t.console.debug message }

end Tally

/-- What a walk starts from: an entry, a place that cannot be listed, or a fault that ends the walk
when its turn comes. -/
inductive Root (entry : Type)
  | entry (e : entry)
  | unlistable (failure : Failure)
  | faulty (fault : Fault)

/-- The state of a walk: the world, what was met so far, the opened containers with the depth of
their entries, innermost first, and the roots that are left. -/
structure State (world entry position : Type) where
  world : world
  tally : Tally
  frames : List (position × Nat) := []
  roots : List (Root entry)

/-- What a step of a walk leads to. -/
inductive Next (world entry position : Type)
  | continues (s : State world entry position)
  | found (o : Occurrence) (s : State world entry position)
  | ended (s : State world entry position)
  | aborted (fault : Fault) (s : State world entry position)

variable {world entry container position : Type}

/-- The first fault that leaving containers raises, innermost first. Those further out are left all
the same, but what they raise is lost. -/
def closingFault? (d : Decoder world entry container position) :
    List (position × Nat) → world → Option Fault
  | [], _ => none
  | f :: frames, w => (d.closeFault? f.1 w).or (closingFault? d frames (d.close f.1 w))

namespace State

/-- Leaves all opened containers, innermost first. -/
def closeAll (d : Decoder world entry container position) (s : State world entry position) :
    State world entry position :=
  { s with world := s.frames.foldl (fun w f => d.close f.1 w) s.world, frames := [] }

/-- The fault that leaving all opened containers raises, if it raises one. -/
def leavingFault? (d : Decoder world entry container position)
    (s : State world entry position) : Option Fault :=
  closingFault? d s.frames s.world

/-- The state after a change of what was met. -/
def mapTally (s : State world entry position) (f : Tally → Tally) : State world entry position :=
  { s with tally := f s.tally }

end State

/-! ## Steps -/

/-- Has the budget of entries been exceeded? -/
def isExhausted (l : Limits) (t : Tally) : Bool := l.budget < t.entriesSeen

/-- A fault ends the walk: it, or the one that leaving the opened containers raises in its place. -/
def abort (d : Decoder world entry container position) (fault : Fault)
    (s : State world entry position) : Next world entry position :=
  .aborted ((s.leavingFault? d).getD fault) (s.closeAll d)

/-- All opened containers are left. The walk goes on from there unless that raises a fault. -/
def leave (d : Decoder world entry container position) (s : State world entry position) :
    Next world entry position :=
  match s.leavingFault? d with
  | none => .continues (s.closeAll d)
  | some fault => .aborted fault (s.closeAll d)

/-- Opens a container that was met at a depth. -/
def expand (d : Decoder world entry container position) (l : Limits) (kind : EntryKind)
    (place : Provenance) (contents : container) (depth : Nat) (s : State world entry position) :
    Next world entry position :=
  match l.maxDepth with
  | .unsaid => abort d .limitUnsaid s
  | .atMost n =>
    if (depth : Int) + 1 > n then .continues (s.mapTally (·.addLimit place (.depth n)))
    else
      let s :=
        s.mapTally (·.debug ("container open kind=" ++ kind.label ++ " entry=" ++ place.text))
      match d.enter contents s.world with
      | .ok p world => .continues { s with world, frames := (p, depth + 1) :: s.frames }
      | .error (.failed failure) world =>
        .continues ({ s with world }.mapTally (·.addFailure place.text failure))
      | .error (.aborted fault) world => abort d fault { s with world }

/-- Visits an entry at a depth. The entry that exceeds the budget is counted and not decoded. -/
def visit (d : Decoder world entry container position) (l : Limits) (e : entry) (depth : Nat)
    (s : State world entry position) : Next world entry position :=
  let place := d.placeOf e
  let s := s.mapTally fun t => { t with entriesSeen := t.entriesSeen + 1 }
  if isExhausted l s.tally then
    match l.maxEntries with
    | .unsaid => abort d .limitUnsaid s
    | .atMost n => .continues (s.mapTally (·.addLimit place (.entries n)))
  else
    match d.decode e s.world with
    | .ok (.definition o) world => .found o { s with world }
    | .ok (.container kind place contents) world =>
      expand d l kind place contents depth { s with world }
    | .ok (.unrecognized _) world =>
      .continues ({ s with world }.mapTally
        (·.debug ("entry skipped reason=unrecognized entry=" ++ place.text)))
    | .error (.failed failure) world =>
      .continues ({ s with world }.mapTally (·.addFailure place.text failure))
    | .error (.aborted fault) world => abort d fault { s with world }

/-- One step: the next entry of the innermost opened container, or the next root. With the budget
exceeded, containers are left and no root entry is begun. -/
def step (d : Decoder world entry container position) (l : Limits)
    (s : State world entry position) : Next world entry position :=
  match s.frames with
  | [] =>
    match s.roots with
    | [] => .ended s
    | .unlistable failure :: roots =>
      .continues ({ s with roots }.mapTally (·.addFailure failure.location failure))
    | .faulty fault :: _ => .aborted fault s
    | .entry e :: roots =>
      if isExhausted l s.tally then .ended { s with roots := [] }
      else visit d l e 0 { s with roots }
  | (p, depth) :: frames =>
    if isExhausted l s.tally then leave d s
    else
      match d.pull p s.world with
      | .ok (some (e, p)) world =>
        visit d l e depth { s with world, frames := (p, depth) :: frames }
      | .ok none world => .continues { s with world, frames }
      | .error (.failed failure) world =>
        .continues ({ s with world, frames }.mapTally (·.addFailure failure.location failure))
      | .error (.aborted fault) world => abort d fault { s with world, frames }

end JndiScan.Walk
