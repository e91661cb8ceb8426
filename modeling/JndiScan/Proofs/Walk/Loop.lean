/-
The loop that walks one entry, round by round. A round visits the entry that waits, if one does, and
then takes the next entry from the innermost container, which is left when it gives no more. What
the containers hold bounds nothing, since a container may go on without end and hold itself. Every
round uses up a part of the budget, or a container that was opened at its expense.
-/
import JndiScan.Proofs.Walk.Steps
import JndiScan.Proofs.Walk.Turns

namespace JndiScan.Walk

variable {world entry container position : Type}

/-! ## Rounds -/

/-- Where the loop stands before a round: the entry that waits for its visit, with its depth, and
the state. No entry waits after a container that gave no more. -/
structure Loop (world entry position : Type) where
  waiting : Option (entry × Nat)
  state : State world entry position

/-- How a round closes: the loop goes on, or it is left, or a fault ends it. -/
inductive Loop.Close (world entry position : Type)
  | goesOn (t : Loop world entry position)
  | left (s : State world entry position)
  | raised (fault : Fault) (s : State world entry position)

/-- What the loop came to: how many rounds there were, what was found, the state after all
containers were left, and the fault if one ended it. -/
structure Loop.Run (world entry position : Type) where
  rounds : Nat
  found : List Occurrence
  state : State world entry position
  fault : Option Fault := none

namespace Loop

/-- The run with a round before it. -/
def Run.after (found : Option Occurrence) (r : Run world entry position) :
    Run world entry position :=
  { r with rounds := r.rounds + 1, found := found.toList ++ r.found }

/-- How the run ended. -/
def Run.outcome (r : Run world entry position) : Outcome (List Occurrence) world :=
  r.state.outcome r.found r.fault

/-- The loop at the start of an entry. -/
def start (e : entry) (s : State world entry position) : Loop world entry position :=
  { waiting := some (e, 0), state := s }

variable (d : Decoder world entry container position) (l : Limits)

/-- The visit of the entry that waits. -/
def visited (t : Loop world entry position) : Next world entry position :=
  match t.waiting with
  | some (e, depth) => visit d l e depth t.state
  | none => .continues t.state

/-- What comes after the visit: with no container open or the budget exceeded the loop is left, and
otherwise the innermost container is asked for its next entry. -/
def advance (s : State world entry position) : Close world entry position :=
  match s.frames with
  | [] => .left s
  | (p, depth) :: frames =>
    if isExhausted l s.tally then .left s
    else
      match d.pull p s.world with
      | .ok (some (e, p)) world =>
        .goesOn
          { waiting := some (e, depth)
            state := { s with world, frames := (p, depth) :: frames } }
      | .ok none world => .goesOn { waiting := none, state := { s with world, frames } }
      | .error (.failed failure) world =>
        .goesOn
          { waiting := none
            state := { s with world, frames }.mapTally (·.addFailure failure.location failure) }
      | .error (.aborted fault) world => .raised fault { s with world, frames }

/-- One round, with the class that it finds. -/
def round (t : Loop world entry position) : Option Occurrence × Close world entry position :=
  match t.visited d l with
  | .continues s => (none, advance d l s)
  | .found o s => (some o, advance d l s)
  | .ended s => (none, .left s)
  | .aborted fault s => (none, .raised fault s)

/-! ## The roots that are left -/

section Roots

variable {d l} {s : State world entry position}

theorem ofVisit_visited (t : Loop world entry position) :
    (t.visited d l).OfVisit t.state.roots := by
  unfold visited
  split
  · exact ofVisit_visit ..
  · rfl

/-- The state in which a round closes. -/
def Close.state : Close world entry position → State world entry position
  | goesOn t => t.state
  | left s | raised _ s => s

theorem roots_advance (s : State world entry position) :
    (advance d l s).state.roots = s.roots := by
  unfold advance
  split
  · rfl
  · split
    · rfl
    · split <;> rfl

theorem roots_round (t : Loop world entry position) :
    (round d l t).2.state.roots = t.state.roots := by
  have hvisit := ofVisit_visited (d := d) (l := l) t
  unfold round
  cases hv : t.visited d l with
  | continues s | found o s => rw [hv] at hvisit; exact (roots_advance s).trans hvisit
  | ended s => rw [hv] at hvisit; exact hvisit.elim
  | aborted fault s => rw [hv] at hvisit; exact hvisit.2

end Roots

/-! ## What the rounds use up -/

/-- A bound of the rounds that are ahead. The budget counts twice, since an entry may open a
container that is left in a round of its own. -/
def remaining (t : Loop world entry position) : Nat :=
  t.state.remaining l + if t.waiting.isNone then 1 else 0

theorem remaining_some (next : entry × Nat) (s : State world entry position) :
    remaining l { waiting := some next, state := s } = s.remaining l := rfl

theorem remaining_none (s : State world entry position) :
    remaining l { waiting := none, state := s } = s.remaining l + 1 := rfl

variable {d l} {t t' : Loop world entry position} {s : State world entry position}
variable {found : Option Occurrence}

/-- The loop goes on within the budget only. A round without an entry is paid for by the container
that was left before it. -/
theorem advance_eq_goesOn (h : advance d l s = .goesOn t) :
    isExhausted l s.tally = false ∧ isExhausted l t.state.tally = false ∧
      t.remaining l ≤ s.remaining l := by
  unfold advance at h
  split at h
  · cases h
  · next p depth frames hframes =>
    split at h
    · cases h
    · next hx =>
      have hx : isExhausted l s.tally = false := by simpa using hx
      refine ⟨hx, ?_⟩
      split at h
      · cases h
        exact ⟨hx, by simp only [remaining_some, State.remaining, hframes, List.length_cons]; omega⟩
      · cases h
        exact ⟨hx, by simp only [remaining_none, State.remaining, hframes, List.length_cons]; omega⟩
      · cases h
        refine ⟨hx, ?_⟩
        simp only [remaining_none, State.remaining, State.mapTally, Tally.addFailure, hframes,
          List.length_cons]
        omega
      · cases h

/-- Within the budget a visit takes its part of what remains, and so does going without one. -/
theorem visited_below (hx : isExhausted l t.state.tally = false) :
    (t.visited d l).Below l (t.remaining l) := by
  unfold visited remaining
  cases t.waiting with
  | none => exact Nat.lt_succ_self _
  | some next => exact visit_below d l next.1 next.2 t.state hx

/-- With the budget exceeded there is no further round. -/
theorem round_ne_goesOn (hx : isExhausted l t.state.tally = true) :
    round d l t ≠ (found, .goesOn t') := by
  have hb : l.budget < t.state.tally.entriesSeen := by simpa [isExhausted] using hx
  intro h
  unfold round visited at h
  cases hw : t.waiting with
  | none =>
    rw [hw] at h
    have hgoes := (advance_eq_goesOn (Prod.mk.inj h).2).1
    rw [hx] at hgoes
    cases hgoes
  | some next =>
    rw [hw] at h
    simp only [visit_of_exceeded (Nat.le_of_lt hb)] at h
    cases hl : l.maxEntries with
    | unsaid => rw [hl] at h; cases (Prod.mk.inj h).2
    | atMost n =>
      rw [hl] at h
      have hgoes := (advance_eq_goesOn (Prod.mk.inj h).2).1
      have hlater : l.budget < t.state.tally.entriesSeen + 1 := Nat.lt_succ_of_lt hb
      simp [isExhausted, Tally.addLimit, Tally.note] at hgoes
      omega

/-- A round that is not the last one uses up a part of what is ahead, and stays within the
budget. -/
theorem remaining_lt_of_round (h : round d l t = (found, .goesOn t')) :
    isExhausted l t'.state.tally = false ∧ t'.remaining l < t.remaining l := by
  have hx : isExhausted l t.state.tally = false := by
    cases hx : isExhausted l t.state.tally with
    | false => rfl
    | true => exact absurd h (round_ne_goesOn hx)
  have hbelow := visited_below (d := d) hx
  unfold round at h
  cases hv : t.visited d l with
  | continues s | found o s =>
    rw [hv] at h hbelow
    obtain ⟨-, hnext, hle⟩ := advance_eq_goesOn (Prod.mk.inj h).2
    exact ⟨hnext, Nat.lt_of_le_of_lt hle hbelow⟩
  | ended s | aborted fault s => rw [hv] at h; cases (Prod.mk.inj h).2

/-- Within the budget a round is ahead, and what remains covers it twice. -/
theorem length_add_two_le_remaining (hx : isExhausted l t.state.tally = false) :
    t.state.roots.length + 2 ≤ t.remaining l := by
  have hseen : t.state.tally.entriesSeen ≤ l.budget := by simpa [isExhausted] using hx
  unfold remaining State.remaining
  omega

/-! ## Runs -/

variable (d l)

/-- The loop, until it is left or a fault ends it. Either way the containers that are open are left
then, innermost first; a fault that this raises counts before the other one. -/
def run (t : Loop world entry position) : Run world entry position :=
  match _h : round d l t with
  | (found, .goesOn t') => (run t').after found
  | (found, .left s) =>
    { rounds := 1, found := found.toList, state := s.closeAll d, fault := s.leavingFault? d }
  | (found, .raised fault s) =>
    { rounds := 1, found := found.toList, state := s.closeAll d
      fault := some ((s.leavingFault? d).getD fault) }
  termination_by t.remaining l
  decreasing_by exact (remaining_lt_of_round _h).2

/-- The run, one round at a time. -/
theorem run_eq_round (t : Loop world entry position) :
    run d l t =
      match round d l t with
      | (found, .goesOn t') => (run d l t').after found
      | (found, .left s) =>
        { rounds := 1, found := found.toList, state := s.closeAll d, fault := s.leavingFault? d }
      | (found, .raised fault s) =>
        { rounds := 1, found := found.toList, state := s.closeAll d
          fault := some ((s.leavingFault? d).getD fault) } := by
  rw [run]
  split <;> next h => simp only [h]

/-- What holds of runs with one round, and with a round before whenever it holds without it, holds
of all runs. -/
@[elab_as_elim]
theorem run_induction {motive : Loop world entry position → Prop}
    (goesOn : ∀ t found t', round d l t = (found, .goesOn t') → motive t' → motive t)
    (left : ∀ t found s, round d l t = (found, .left s) → motive t)
    (raised : ∀ t found fault s, round d l t = (found, .raised fault s) → motive t)
    (t : Loop world entry position) : motive t :=
  match h : round d l t with
  | (found, .goesOn t') => goesOn t found t' h (run_induction goesOn left raised t')
  | (found, .left s) => left t found s h
  | (found, .raised fault s) => raised t found fault s h
  termination_by t.remaining l
  decreasing_by exact (remaining_lt_of_round h).2

/-- The rounds of a run are covered by what remains before it, with one to spare, and the roots are
not touched. -/
theorem rounds_lt_remaining (t : Loop world entry position)
    (hx : isExhausted l t.state.tally = false) :
    t.state.roots.length + (run d l t).rounds < t.remaining l := by
  induction t using run_induction d l with
  | goesOn t found t' h ih =>
    obtain ⟨hnext, hlt⟩ := remaining_lt_of_round h
    have hroots := roots_round (d := d) (l := l) t
    rw [h] at hroots
    rw [run_eq_round, h, ← hroots]
    exact Nat.lt_of_le_of_lt (ih hnext) hlt
  | left t found s h =>
    rw [run_eq_round, h]
    exact length_add_two_le_remaining hx
  | raised t found fault s h =>
    rw [run_eq_round, h]
    exact length_add_two_le_remaining hx

/-- No container is open after a run. -/
theorem frames_run (t : Loop world entry position) : (run d l t).state.frames = [] := by
  induction t using run_induction d l with
  | goesOn t found t' h ih => rw [run_eq_round, h]; exact ih
  | left t found s h => rw [run_eq_round, h]; rfl
  | raised t found fault s h => rw [run_eq_round, h]; rfl

variable {d l}

/-! ## The loop in a walk -/

section Walk

theorem abort_of_nil (fault : Fault) (h : s.frames = []) : abort d fault s = .aborted fault s := by
  obtain ⟨w, tally, frames, roots⟩ := s
  cases h
  rfl

/-- The occurrences from where a round closes. -/
def Close.occurrences (d : Decoder world entry container position) (l : Limits) :
    Close world entry position → Outcome (List Occurrence) world
  | goesOn t => (t.visited d l).occurrences d l none
  | left s => (leave d s).occurrences d l none
  | raised fault s => (abort d fault s).occurrences d l none

/-- A step of a walk with opened containers is what the loop does after a visit, and the next
visit. -/
theorem occurrences_eq_advance (s : State world entry position) :
    Walk.occurrences d l none s = (advance d l s).occurrences d l := by
  obtain ⟨w, tally, frames, roots⟩ := s
  cases frames with
  | nil => rfl
  | cons frame frames =>
    rw [occurrences_eq_step]
    unfold step advance
    cases isExhausted l tally with
    | true => rfl
    | false =>
      simp only
      cases d.pull frame.1 w with
      | ok pulled w => cases pulled <;> rfl
      | error trouble w => cases trouble <;> rfl

/-- The outcome with what was found before it. -/
def before (found : Option Occurrence) (r : Outcome (List Occurrence) world) :
    Outcome (List Occurrence) world :=
  { r with value := found.toList ++ r.value }

/-- A visit, and what comes after it, is a round and what comes after that. -/
theorem occurrences_eq_round (t : Loop world entry position) :
    (t.visited d l).occurrences d l none =
      before (round d l t).1 ((round d l t).2.occurrences d l) := by
  have hvisit := ofVisit_visited (d := d) (l := l) t
  unfold round
  cases hv : t.visited d l with
  | continues s => exact occurrences_eq_advance s
  | found o s =>
    simp only [← occurrences_eq_advance s]
    rfl
  | ended s => rw [hv] at hvisit; exact hvisit.elim
  | aborted fault s =>
    rw [hv] at hvisit
    simp only [Close.occurrences, abort_of_nil fault hvisit.1]
    rfl

theorem andThen_after (found : Option Occurrence) (r : Run world entry position)
    (next : Tally → world → Outcome (List Occurrence) world) :
    (r.after found).outcome.andThen next = before found (r.outcome.andThen next) := by
  obtain ⟨rounds, values, state, fault⟩ := r
  cases fault with
  | some fault => rfl
  | none => simp [Run.after, Run.outcome, State.outcome, Outcome.andThen, before]

/-- A walk goes on from a visit as the loop does, and then with the roots that are left. -/
theorem occurrences_eq_run (t : Loop world entry position) :
    (t.visited d l).occurrences d l none =
      (run d l t).outcome.andThen fun tally w =>
        Walk.occurrences d l none { world := w, tally, roots := t.state.roots } := by
  induction t using run_induction d l with
  | goesOn t found t' h ih =>
    have hroots := roots_round (d := d) (l := l) t
    rw [h] at hroots
    rw [occurrences_eq_round, run_eq_round, h, andThen_after, ← hroots]
    exact congrArg (before found) ih
  | left t found s h =>
    have hroots := roots_round (d := d) (l := l) t
    rw [h] at hroots
    rw [occurrences_eq_round, run_eq_round, h, ← hroots]
    simp only [Close.occurrences, leave]
    cases hleaving : s.leavingFault? d with
    | none => rfl
    | some fault =>
      simp [before, Next.occurrences, Run.outcome, State.outcome, Outcome.andThen]
  | raised t found fault s h =>
    rw [occurrences_eq_round, run_eq_round, h]
    simp [before, Close.occurrences, abort, Next.occurrences, Run.outcome, State.outcome,
      Outcome.andThen]

/-- The walk of an entry within the budget is the loop from its start, and then the walk of the
roots after it. -/
theorem occurrences_root (e : entry) (roots : List (Root entry)) (tally : Tally) (w : world)
    (hx : isExhausted l tally = false) :
    Walk.occurrences d l none { world := w, tally, roots := .entry e :: roots } =
      (run d l (.start e { world := w, tally, roots })).outcome.andThen fun tally w =>
        Walk.occurrences d l none { world := w, tally, roots } := by
  have hstep : step d l { world := w, tally, roots := .entry e :: roots } =
      (start e { world := w, tally, roots }).visited d l :=
    step_of_root rfl rfl (Nat.not_lt.1 (of_decide_eq_false hx))
  rw [occurrences_eq_step, hstep]
  exact occurrences_eq_run _

end Walk

/-! ## A fresh walk -/

end Loop

end JndiScan.Walk
