/-
Whole walks. Every step uses up a bit of the budget of entries, an opened container or a root, so
a walk ends whatever the decoder does.
-/
import JndiScan.Walk.Basic

namespace JndiScan.Walk

variable {world entry container position : Type}

/-- A bound of the steps that a walk may still take. -/
def State.remaining (l : Limits) (s : State world entry position) : Nat :=
  2 * (l.budget + 1 - s.tally.entriesSeen) + s.frames.length + s.roots.length

namespace Next

/-- Is something that leads on below a bound? -/
def Below (l : Limits) (n : Nat) : Next world entry position → Prop
  | continues s => s.remaining l < n
  | found _ s => s.remaining l < n
  | ended _ => True
  | aborted _ _ => True

theorem Below.mono {l : Limits} {m n : Nat} (hmn : m ≤ n) {x : Next world entry position}
    (h : x.Below l m) : x.Below l n := by
  cases x with
  | continues s => exact Nat.lt_of_lt_of_le h hmn
  | found o s => exact Nat.lt_of_lt_of_le h hmn
  | ended s => trivial
  | aborted f s => trivial

end Next

theorem expand_below (d : Decoder world entry container position) (l : Limits) (kind : EntryKind)
    (place : Provenance) (contents : container) (depth : Nat) (s : State world entry position) :
    (expand d l kind place contents depth s).Below l (s.remaining l + 2) := by
  unfold expand
  split
  · trivial
  · split
    · simp [Next.Below, State.remaining, State.mapTally, Tally.addLimit]
    · simp only [State.mapTally]
      split
      · simp [Next.Below, State.remaining, Tally.debug]
        omega
      · simp [Next.Below, State.remaining, Tally.addFailure, Tally.debug]
      · trivial

/-- A visit takes its part of the budget. -/
theorem visit_below (d : Decoder world entry container position) (l : Limits) (e : entry)
    (depth : Nat) (s : State world entry position) (h : isExhausted l s.tally = false) :
    (visit d l e depth s).Below l (s.remaining l) := by
  have hseen : s.tally.entriesSeen ≤ l.budget := by
    simpa [isExhausted] using h
  unfold visit
  lift_lets
  intro place s'
  have hs : s'.remaining l + 2 = s.remaining l := by
    simp only [s', State.remaining, State.mapTally]; omega
  split
  · split
    · trivial
    · simp only [Next.Below, ← hs]; simp [State.remaining, State.mapTally, Tally.addLimit]
  · split
    · simp only [Next.Below, ← hs]; simp [State.remaining]
    · exact (expand_below ..).mono (Nat.le_of_eq (by rw [← hs]; rfl))
    · simp only [Next.Below, ← hs]; simp [State.remaining, State.mapTally, Tally.debug]
    · simp only [Next.Below, ← hs]; simp [State.remaining, State.mapTally, Tally.addFailure]
    · trivial

/-- A step leads to a state with fewer steps ahead. -/
theorem step_below (d : Decoder world entry container position) (l : Limits)
    (s : State world entry position) : (step d l s).Below l (s.remaining l) := by
  unfold step
  split
  · rename_i hf
    split
    · trivial
    · rename_i hr
      simp only [Next.Below, State.remaining, State.mapTally, Tally.addFailure, hr, hf]
      simp
    · trivial
    · rename_i hr
      split
      · trivial
      · rename_i hx
        refine (visit_below _ _ _ _ _ (by simpa using hx)).mono ?_
        simp only [State.remaining, hr]; simp
  · rename_i hf
    split
    · unfold leave
      split
      · simp only [Next.Below, State.remaining, State.closeAll, hf]; simp
      · trivial
    · rename_i hx
      split
      · refine (visit_below _ _ _ _ _ (by simpa using hx)).mono ?_
        simp only [State.remaining, hf]; simp
      · simp only [Next.Below, State.remaining, hf]; simp
      · simp only [Next.Below, State.remaining, State.mapTally, Tally.addFailure, hf]; simp
      · trivial

theorem remaining_lt_of_step_eq_continues {d : Decoder world entry container position} {l : Limits}
    {s s' : State world entry position} (h : step d l s = .continues s') :
    s'.remaining l < s.remaining l := by
  have := step_below d l s
  rw [h] at this
  exact this

theorem remaining_lt_of_step_eq_found {d : Decoder world entry container position} {l : Limits}
    {s s' : State world entry position} {o : Occurrence} (h : step d l s = .found o s') :
    s'.remaining l < s.remaining l := by
  have := step_below d l s
  rw [h] at this
  exact this

/-! ## Runs -/

/-- How a walk ended: what was made of its occurrences, what was met, the world, and the fault if
one ended it. -/
structure Outcome (α world : Type) where
  value : α
  tally : Tally
  world : world
  fault : Option Fault := none

namespace State

/-- The end of a walk in a state. -/
def outcome (s : State world entry position) (value : α) (fault : Option Fault := none) :
    Outcome α world :=
  { value, tally := s.tally, world := s.world, fault }

/-- The state with another console. -/
def setConsole (s : State world entry position) (c : Console) : State world entry position :=
  s.mapTally fun t => { t with console := c }

@[simp] theorem remaining_setConsole (l : Limits) (s : State world entry position) (c : Console) :
    (s.setConsole c).remaining l = s.remaining l := rfl

/-- Walks on and gives each occurrence to `onFound`, which may print. After as many occurrences as
`wanted` tells the walk is left. -/
def fold (d : Decoder world entry container position) (l : Limits)
    (onFound : α → Occurrence → Console → α × Console) (wanted : Option Nat) (value : α)
    (s : State world entry position) : Outcome α world :=
  match wanted with
  | some 0 => (s.closeAll d).outcome value (s.leavingFault? d)
  | _ =>
    match _h : step d l s with
    | .continues s' => fold d l onFound wanted value s'
    | .found o s' =>
      let (value, console) := onFound value o s'.tally.console
      fold d l onFound (wanted.map (· - 1)) value (s'.setConsole console)
    | .ended s' => s'.outcome value
    | .aborted fault s' => s'.outcome value (some fault)
  termination_by s.remaining l
  decreasing_by
    · exact remaining_lt_of_step_eq_continues _h
    · simpa using remaining_lt_of_step_eq_found _h

end State

/-- The occurrences of a walk, in order, as far as they are wanted. -/
def occurrences (d : Decoder world entry container position) (l : Limits) (wanted : Option Nat)
    (s : State world entry position) : Outcome (List Occurrence) world :=
  let r := s.fold d l (fun found o c => (o :: found, c)) wanted []
  { r with value := r.value.reverse }

end JndiScan.Walk
