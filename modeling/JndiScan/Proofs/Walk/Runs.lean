/-
Walks as wholes: an induction over the steps of a walk, the occurrences of a walk step by step, and
what a whole walk keeps because every step keeps it. A decoder that works on less of the world goes
the same way, and what is printed decides nothing, so whatever is made of the occurrences of a walk
is made of those that `occurrences` gives.
-/
import JndiScan.Proofs.Walk.Preorder

namespace JndiScan.Walk

variable {world entry container position : Type}

namespace Next

/-- The state that something leads to. -/
def state : Next world entry position → State world entry position
  | continues s | found _ s | ended s | aborted _ s => s

/-- The class that was found. -/
def found? : Next world entry position → Option Occurrence
  | found o _ => some o
  | _ => none

/-- Something with another state. -/
def map {world' : Type} (f : State world entry position → State world' entry position) :
    Next world entry position → Next world' entry position
  | continues s => continues (f s)
  | found o s => found o (f s)
  | ended s => ended (f s)
  | aborted fault s => aborted fault (f s)

end Next

/-! ## Steps one after the other -/

section Steps

variable (d : Decoder world entry container position) (l : Limits)

/-- What holds where a walk ends, and before a step whenever it holds after it, holds everywhere. -/
@[elab_as_elim]
theorem walk_induction {motive : State world entry position → Prop}
    (continues : ∀ s s', step d l s = .continues s' → motive s' → motive s)
    (found : ∀ s o s', step d l s = .found o s' → motive s' → motive s)
    (ended : ∀ s s', step d l s = .ended s' → motive s)
    (aborted : ∀ s fault s', step d l s = .aborted fault s' → motive s)
    (s : State world entry position) : motive s :=
  match h : step d l s with
  | .continues s' => continues s s' h (walk_induction continues found ended aborted s')
  | .found o s' => found s o s' h (walk_induction continues found ended aborted s')
  | .ended s' => ended s s' h
  | .aborted fault s' => aborted s fault s' h
  termination_by s.remaining l
  decreasing_by
    · exact remaining_lt_of_step_eq_continues h
    · exact remaining_lt_of_step_eq_found h

/-- The same over walks of which so many occurrences are wanted. -/
@[elab_as_elim]
theorem wanted_induction {motive : Option Nat → State world entry position → Prop}
    (zero : ∀ s, motive (some 0) s)
    (continues : ∀ wanted s s', wanted ≠ some 0 → step d l s = .continues s' →
      motive wanted s' → motive wanted s)
    (found : ∀ wanted s o s', wanted ≠ some 0 → step d l s = .found o s' →
      motive (wanted.map (· - 1)) s' → motive wanted s)
    (ended : ∀ wanted s s', wanted ≠ some 0 → step d l s = .ended s' → motive wanted s)
    (aborted : ∀ wanted s fault s', wanted ≠ some 0 → step d l s = .aborted fault s' →
      motive wanted s)
    (wanted : Option Nat) (s : State world entry position) : motive wanted s := by
  have of_ne_zero : ∀ {wanted s}, (wanted ≠ some 0 → motive wanted s) → motive wanted s := by
    intro wanted s h
    by_cases hw : wanted = some 0
    · exact hw ▸ zero s
    · exact h hw
  induction s using walk_induction d l generalizing wanted with
  | continues s s' h ih => exact of_ne_zero fun hw => continues wanted s s' hw h (ih wanted)
  | found s o s' h ih => exact of_ne_zero fun hw => found wanted s o s' hw h (ih _)
  | ended s s' h => exact of_ne_zero fun hw => ended wanted s s' hw h
  | aborted s fault s' h => exact of_ne_zero fun hw => aborted wanted s fault s' hw h

end Steps

variable {d : Decoder world entry container position} {l : Limits}
variable {s s' : State world entry position}

section Fold

variable {onFound : α → Occurrence → Console → α × Console} {value : α}

theorem fold_of_aborted {wanted : Option Nat} (hw : wanted ≠ some 0) {fault : Fault}
    (h : step d l s = .aborted fault s') :
    s.fold d l onFound wanted value = s'.outcome value (some fault) := by
  rw [State.fold]
  · split
    · next h' => cases h.symm.trans h'
    · next h' => cases h.symm.trans h'
    · next h' => cases h.symm.trans h'
    · next h' => cases h.symm.trans h'; rfl
  · exact hw

/-- A walk of which nothing is wanted is left at once. -/
theorem fold_zero :
    s.fold d l onFound (some 0) value = (s.closeAll d).outcome value (s.leavingFault? d) := by
  rw [State.fold]

theorem fold_collect (wanted : Option Nat) (found : List Occurrence)
    (s : State world entry position) :
    s.fold d l (fun found o c => (o :: found, c)) wanted found =
      let r := s.fold d l (fun found o c => (o :: found, c)) wanted []
      { r with value := r.value ++ found } := by
  induction wanted, s using wanted_induction d l generalizing found with
  | zero s => rw [fold_zero, fold_zero]; rfl
  | continues wanted s s' hw h ih => rw [fold_of_continues hw h, fold_of_continues hw h, ih]
  | found wanted s o s' hw h ih =>
    have hs : s'.setConsole s'.tally.console = s' := rfl
    rw [fold_of_found hw h, fold_of_found hw h]
    simp only [hs]
    rw [ih (o :: found), ih [o]]
    simp
  | ended wanted s s' hw h => rw [fold_of_ended hw h, fold_of_ended hw h]; rfl
  | aborted wanted s fault s' hw h => rw [fold_of_aborted hw h, fold_of_aborted hw h]; rfl

end Fold

/-! ## The occurrences step by step -/

/-- The occurrences from what a step leads to, as far as they are wanted from there. -/
def Next.occurrences (d : Decoder world entry container position) (l : Limits)
    (wanted : Option Nat) : Next world entry position → Outcome (List Occurrence) world
  | continues s => Walk.occurrences d l wanted s
  | found o s =>
    let r := Walk.occurrences d l (wanted.map (· - 1)) s
    { r with value := o :: r.value }
  | ended s => s.outcome []
  | aborted fault s => s.outcome [] (some fault)

theorem occurrences_zero (d : Decoder world entry container position) (l : Limits)
    (s : State world entry position) :
    occurrences d l (some 0) s = (s.closeAll d).outcome [] (s.leavingFault? d) := by
  rw [occurrences, fold_zero]
  rfl

/-- A walk of which something is wanted is its first step and what that leads to. -/
theorem occurrences_of_wanted {wanted : Option Nat} (hw : wanted ≠ some 0)
    (d : Decoder world entry container position) (l : Limits) (s : State world entry position) :
    occurrences d l wanted s = (step d l s).occurrences d l wanted := by
  cases h : step d l s with
  | continues s' => rw [occurrences, fold_of_continues hw h]; rfl
  | found o s' =>
    have hs : s'.setConsole s'.tally.console = s' := rfl
    rw [occurrences, fold_of_found hw h]
    simp only [hs]
    rw [fold_collect _ [o] s']
    simp [Next.occurrences, occurrences]
  | ended s' => rw [occurrences, fold_of_ended hw h]; rfl
  | aborted fault s' => rw [occurrences, fold_of_aborted hw h]; rfl

/-- A whole walk is its first step and what that leads to. -/
theorem occurrences_eq_step (d : Decoder world entry container position) (l : Limits)
    (s : State world entry position) :
    occurrences d l none s = (step d l s).occurrences d l none :=
  occurrences_of_wanted (by simp) d l s

/-- What every step keeps of what was met and of the world, a whole walk keeps. -/
theorem occurrences_keeps {P : Tally → world → Prop}
    (hstep : ∀ s, P s.tally s.world → P (step d l s).state.tally (step d l s).state.world)
    (hs : P s.tally s.world) :
    P (occurrences d l none s).tally (occurrences d l none s).world := by
  induction s using walk_induction d l with
  | continues s s' h ih =>
    have hnext := hstep s hs
    rw [h] at hnext
    rw [occurrences_eq_step, h]
    exact ih hnext
  | found s o s' h ih =>
    have hnext := hstep s hs
    rw [h] at hnext
    rw [occurrences_eq_step, h]
    exact ih hnext
  | ended s s' h =>
    have hnext := hstep s hs
    rw [h] at hnext
    rw [occurrences_eq_step, h]
    exact hnext
  | aborted s fault s' h =>
    have hnext := hstep s hs
    rw [h] at hnext
    rw [occurrences_eq_step, h]
    exact hnext

/-! ## Walks that see less -/

/-- The tally with nothing printed and no details wanted. -/
def Tally.quiet (t : Tally) : Tally := { t with console := { verbose := false } }

/-- A result with another world. -/
def mapWorld {world world' : Type} (φ : world → world') :
    EStateM.Result Trouble world α → EStateM.Result Trouble world' α
  | .ok x w => .ok x (φ w)
  | .error trouble w => .error trouble (φ w)

/-- What `d` does to a world, `d'` does to what `φ` shows of it. -/
structure Decoder.Shows {world world' : Type} (φ : world → world')
    (d : Decoder world entry container position) (d' : Decoder world' entry container position) :
    Prop where
  placeOf : ∀ e, d'.placeOf e = d.placeOf e
  decode : ∀ e w, d'.decode e (φ w) = mapWorld φ (d.decode e w)
  enter : ∀ c w, d'.enter c (φ w) = mapWorld φ (d.enter c w)
  pull : ∀ p w, d'.pull p (φ w) = mapWorld φ (d.pull p w)
  close : ∀ p w, d'.close p (φ w) = φ (d.close p w)
  closeFault? : ∀ p w, d'.closeFault? p (φ w) = d.closeFault? p w

theorem Decoder.shows_id (d : Decoder world entry container position) : d.Shows id d where
  placeOf _ := rfl
  decode e w := by show d.decode e w = _; cases d.decode e w <;> rfl
  enter c w := by show d.enter c w = _; cases d.enter c w <;> rfl
  pull p w := by show d.pull p w = _; cases d.pull p w <;> rfl
  close _ _ := rfl
  closeFault? _ _ := rfl

section Shows

variable {world' : Type} {φ : world → world'} {d' : Decoder world' entry container position}

/-- What is shown of a state, without what was printed. -/
def State.view (φ : world → world') (s : State world entry position) :
    State world' entry position :=
  { world := φ s.world, tally := s.tally.quiet, frames := s.frames, roots := s.roots }

theorem foldl_close (h : d.Shows φ d') (frames : List (position × Nat)) (w : world) :
    frames.foldl (fun w f => d'.close f.1 w) (φ w) =
      φ (frames.foldl (fun w f => d.close f.1 w) w) := by
  induction frames generalizing w with
  | nil => rfl
  | cons f frames ih => rw [List.foldl_cons, h.close, ih, List.foldl_cons]

theorem closeAll_view (h : d.Shows φ d') {s : State world entry position}
    {s' : State world' entry position} (hs : s'.view id = s.view φ) :
    (s'.closeAll d').view id = (s.closeAll d).view φ := by
  obtain ⟨w, t, frames, roots⟩ := s
  obtain ⟨w', t', frames', roots'⟩ := s'
  simp only [State.view, State.mk.injEq, id_eq] at hs
  obtain ⟨rfl, ht, rfl, rfl⟩ := hs
  simp only [State.view, State.closeAll, foldl_close h, ht, id_eq]

theorem closingFault?_shown (h : d.Shows φ d') (frames : List (position × Nat)) (w : world) :
    closingFault? d' frames (φ w) = closingFault? d frames w := by
  induction frames generalizing w with
  | nil => rfl
  | cons f frames ih => rw [closingFault?, closingFault?, h.closeFault?, h.close, ih]

theorem leavingFault?_view (h : d.Shows φ d') {s : State world entry position}
    {s' : State world' entry position} (hs : s'.view id = s.view φ) :
    s'.leavingFault? d' = s.leavingFault? d := by
  obtain ⟨w, t, frames, roots⟩ := s
  obtain ⟨w', t', frames', roots'⟩ := s'
  simp only [State.view, State.mk.injEq, id_eq] at hs
  obtain ⟨rfl, -, rfl, -⟩ := hs
  exact closingFault?_shown h _ _

theorem leave_view (h : d.Shows φ d') {s : State world entry position}
    {s' : State world' entry position} (hs : s'.view id = s.view φ) :
    (leave d' s').map (State.view id) = (leave d s).map (State.view φ) := by
  rw [leave, leave, leavingFault?_view h hs]
  cases s.leavingFault? d <;> simp only [Next.map, closeAll_view h hs]

theorem abort_view (h : d.Shows φ d') (fault : Fault) {s : State world entry position}
    {s' : State world' entry position} (hs : s'.view id = s.view φ) :
    (abort d' fault s').map (State.view id) = (abort d fault s).map (State.view φ) := by
  simp only [abort, Next.map, closeAll_view h hs, leavingFault?_view h hs]

theorem expand_view (h : d.Shows φ d') (kind : EntryKind) (place : Provenance)
    (contents : container) (depth : Nat) (s : State world entry position) :
    (expand d' l kind place contents depth (s.view φ)).map (State.view id) =
      (expand d l kind place contents depth s).map (State.view φ) := by
  unfold expand
  cases l.maxDepth with
  | unsaid => exact abort_view h _ rfl
  | atMost n =>
    simp only
    split
    · rfl
    · simp only [State.mapTally, State.view, h.enter]
      cases d.enter contents s.world with
      | ok p w => rfl
      | error trouble w =>
        cases trouble with
        | failed failure => rfl
        | aborted fault => exact abort_view h fault rfl

theorem visit_view (h : d.Shows φ d') (e : entry) (depth : Nat)
    (s : State world entry position) :
    (visit d' l e depth (s.view φ)).map (State.view id) =
      (visit d l e depth s).map (State.view φ) := by
  unfold visit
  simp only [State.mapTally, isExhausted]
  by_cases hx : l.budget < s.tally.entriesSeen + 1
  · have hx' : l.budget < (s.view φ).tally.entriesSeen + 1 := hx
    simp only [hx, hx', decide_true, if_true]
    cases l.maxEntries with
    | unsaid => exact abort_view h _ rfl
    | atMost n => simp only [h.placeOf]; rfl
  · have hx' : ¬ l.budget < (s.view φ).tally.entriesSeen + 1 := hx
    simp only [hx', hx, decide_false, Bool.false_eq_true, if_false]
    simp only [State.view, h.decode, h.placeOf]
    cases d.decode e s.world with
    | ok decoded w =>
      cases decoded with
      | container kind place contents =>
        exact expand_view h kind place contents depth
          { s with world := w, tally := { s.tally with entriesSeen := s.tally.entriesSeen + 1 } }
      | _ => rfl
    | error trouble w =>
      cases trouble with
      | failed failure => rfl
      | aborted fault => exact abort_view h fault rfl

theorem step_view (h : d.Shows φ d') (s : State world entry position) :
    (step d' l (s.view φ)).map (State.view id) = (step d l s).map (State.view φ) := by
  obtain ⟨w, t, frames, roots⟩ := s
  unfold step
  simp only [State.mapTally, isExhausted]
  cases frames with
  | nil =>
    cases roots with
    | nil => rfl
    | cons root roots =>
      cases root with
      | unlistable failure => rfl
      | faulty fault => rfl
      | entry e =>
        by_cases hx : l.budget < t.entriesSeen
        · simp only [State.view, Tally.quiet, hx, decide_true, if_true]; rfl
        · simp only [State.view, Tally.quiet, hx, decide_false, Bool.false_eq_true, if_false]
          exact visit_view h e 0 ⟨w, t, [], roots⟩
  | cons frame frames =>
    by_cases hx : l.budget < t.entriesSeen
    · let s : State world entry position := ⟨w, t, frame :: frames, roots⟩
      have hview : (s.view φ).view id = s.view φ := rfl
      have hleave := leave_view h hview
      simp only [State.view, Tally.quiet, hx, decide_true, if_true] at hleave ⊢
      exact hleave
    · simp only [State.view, Tally.quiet, hx, decide_false, Bool.false_eq_true, if_false, h.pull]
      cases d.pull frame.1 w with
      | ok pulled w =>
        cases pulled with
        | none => rfl
        | some next =>
          exact visit_view h next.1 frame.2 ⟨w, t, (next.2, frame.2) :: frames, roots⟩
      | error trouble w =>
        cases trouble with
        | failed failure => rfl
        | aborted fault => exact abort_view h fault rfl

/-- Walks that look alike go on alike. -/
theorem step_of_view (h : d.Shows φ d') {s : State world entry position}
    {s' : State world' entry position} (hs : s'.view id = s.view φ) :
    (step d' l s').map (State.view id) = (step d l s).map (State.view φ) := by
  rw [← step_view (d := d') (d'.shows_id) s', hs, step_view h]

/-- Whatever a decoder makes of what is shown of the world, and whatever is made of the occurrences
without asking what was printed: they are the occurrences of the walk in the whole world, and the
rest is what is shown of its end. -/
theorem fold_of_view (h : d.Shows φ d') (onFound : α → Occurrence → Console → α × Console)
    {f : α → Occurrence → α} (hf : ∀ value o console, (onFound value o console).1 = f value o)
    (wanted : Option Nat) (value : α) (s : State world entry position)
    (s' : State world' entry position) (hs : s'.view id = s.view φ) :
    let r := occurrences d l wanted s
    let r' := s'.fold d' l onFound wanted value
    r'.value = r.value.foldl f value ∧ r'.tally.quiet = r.tally.quiet ∧ r'.world = φ r.world ∧
      r'.fault = r.fault := by
  induction wanted, s using wanted_induction d l generalizing value s' with
  | zero s =>
    have hview := closeAll_view h hs
    rw [occurrences_zero, fold_zero]
    exact ⟨rfl, congrArg State.tally hview, congrArg State.world hview, leavingFault?_view h hs⟩
  | continues wanted s next hw hnext ih =>
    have hview := step_of_view (l := l) h hs
    rw [hnext] at hview
    rw [occurrences_of_wanted hw, hnext]
    cases hx : step d' l s' with
    | continues next' =>
      rw [hx] at hview
      rw [fold_of_continues hw hx]
      exact ih value next' (Next.continues.inj hview)
    | _ => rw [hx] at hview; cases hview
  | found wanted s o next hw hnext ih =>
    have hview := step_of_view (l := l) h hs
    rw [hnext] at hview
    rw [occurrences_of_wanted hw, hnext]
    cases hx : step d' l s' with
    | found o' next' =>
      rw [hx] at hview
      obtain ⟨ho, hnext'⟩ := Next.found.inj hview
      subst ho
      rw [fold_of_found hw hx, hf]
      exact ih (f value o') _ hnext'
    | _ => rw [hx] at hview; cases hview
  | ended wanted s next hw hnext =>
    have hview := step_of_view (l := l) h hs
    rw [hnext] at hview
    rw [occurrences_of_wanted hw, hnext]
    cases hx : step d' l s' with
    | ended next' =>
      rw [hx] at hview
      rw [fold_of_ended hw hx]
      have hview := Next.ended.inj hview
      exact ⟨rfl, congrArg State.tally hview, congrArg State.world hview, rfl⟩
    | _ => rw [hx] at hview; cases hview
  | aborted wanted s fault next hw hnext =>
    have hview := step_of_view (l := l) h hs
    rw [hnext] at hview
    rw [occurrences_of_wanted hw, hnext]
    cases hx : step d' l s' with
    | aborted fault' next' =>
      rw [hx] at hview
      obtain ⟨hfault, hend⟩ := Next.aborted.inj hview
      subst hfault
      rw [fold_of_aborted hw hx]
      exact ⟨rfl, congrArg State.tally hend, congrArg State.world hend, rfl⟩
    | _ => rw [hx] at hview; cases hview

/-- The occurrences of a walk that sees less are those of the walk in the whole world. -/
theorem occurrences_of_view (h : d.Shows φ d') (wanted : Option Nat)
    (s : State world entry position) (s' : State world' entry position)
    (hs : s'.view id = s.view φ) :
    let r := occurrences d l wanted s
    let r' := occurrences d' l wanted s'
    r'.value = r.value ∧ r'.tally.quiet = r.tally.quiet ∧ r'.world = φ r.world ∧
      r'.fault = r.fault := by
  obtain ⟨hvalue, hrest⟩ := fold_of_view (l := l) h (fun found o c => (o :: found, c))
    (f := fun found o => o :: found) (fun _ _ _ => rfl) wanted [] s s' hs
  refine ⟨?_, hrest⟩
  simp only [occurrences, hvalue]
  simp

end Shows

end JndiScan.Walk
