/-
What one step of a walk does, whatever the decoder does. Within the budget a step visits the entry
that comes next, from the innermost container or from the roots, or there is none and the step does
without: a container gives no more, a root cannot be listed, or the walk is over. With the budget
exceeded nothing is visited. Where a walk ends no container is open.
-/
import JndiScan.Proofs.Walk.Runs

namespace JndiScan.Walk

variable {world entry container position : Type}

/-! ## Steps -/

section Steps

variable (d : Decoder world entry container position) (s : State world entry position)

/-- The entry that comes next, its depth, and the state in which it is visited. -/
inductive Comes : entry → Nat → State world entry position → Prop
  | root {e : entry} {roots : List (Root entry)} :
    s.frames = [] → s.roots = .entry e :: roots → Comes e 0 { s with roots }
  | pulled {p next : position} {depth : Nat} {frames : List (position × Nat)} {e : entry}
      {w : world} :
    s.frames = (p, depth) :: frames → d.pull p s.world = .ok (some (e, next)) w →
    Comes e depth { s with world := w, frames := (next, depth) :: frames }

/-- What a step leads to for which no entry comes. -/
inductive Idles : Next world entry position → Prop
  | ended : s.frames = [] → s.roots = [] → Idles (.ended s)
  | unlistable {failure : Failure} {roots : List (Root entry)} :
    s.frames = [] → s.roots = .unlistable failure :: roots →
    Idles (.continues ({ s with roots }.mapTally (·.addFailure failure.location failure)))
  | faulty {fault : Fault} {roots : List (Root entry)} :
    s.frames = [] → s.roots = .faulty fault :: roots → Idles (.aborted fault s)
  | exhausted {p : position} {depth : Nat} {frames : List (position × Nat)} {w : world} :
    s.frames = (p, depth) :: frames → d.pull p s.world = .ok none w →
    Idles (.continues { s with world := w, frames })
  | failed {p : position} {depth : Nat} {frames : List (position × Nat)} {w : world}
      {failure : Failure} :
    s.frames = (p, depth) :: frames → d.pull p s.world = .error (.failed failure) w →
    Idles (.continues
      ({ s with world := w, frames }.mapTally (·.addFailure failure.location failure)))
  | aborted {p : position} {depth : Nat} {frames : List (position × Nat)} {w : world}
      {fault : Fault} :
    s.frames = (p, depth) :: frames → d.pull p s.world = .error (.aborted fault) w →
    Idles (abort d fault { s with world := w, frames })

/-- What a step leads to with the budget exceeded. -/
inductive Stops : Next world entry position → Prop
  | left : s.frames ≠ [] → s.leavingFault? d = none → Stops (.continues (s.closeAll d))
  | refused {fault : Fault} :
    s.frames ≠ [] → s.leavingFault? d = some fault → Stops (.aborted fault (s.closeAll d))
  | faulty {fault : Fault} {roots : List (Root entry)} :
    s.frames = [] → s.roots = .faulty fault :: roots → Stops (.aborted fault s)
  | unlistable {failure : Failure} {roots : List (Root entry)} :
    s.frames = [] → s.roots = .unlistable failure :: roots →
    Stops (.continues ({ s with roots }.mapTally (·.addFailure failure.location failure)))
  | ended : s.frames = [] → Stops (.ended { s with roots := [] })

/-- As long as the budget is not exceeded, a step visits the entry that comes next, or it is the
same under all limits. -/
theorem step_cases :
    (∃ e depth s₁, Comes d s e depth s₁ ∧
      ∀ l, isExhausted l s.tally = false → step d l s = visit d l e depth s₁) ∨
    ∃ x, Idles d s x ∧ ∀ l, isExhausted l s.tally = false → step d l s = x := by
  obtain ⟨w, tally, frames, roots⟩ := s
  unfold step
  cases frames with
  | nil =>
    cases roots with
    | nil => exact .inr ⟨_, .ended rfl rfl, fun _ _ => rfl⟩
    | cons root roots =>
      cases root with
      | unlistable failure => exact .inr ⟨_, .unlistable rfl rfl, fun _ _ => rfl⟩
      | faulty fault => exact .inr ⟨_, .faulty rfl rfl, fun _ _ => rfl⟩
      | entry e => exact .inl ⟨e, 0, _, .root rfl rfl, fun l hx => by simp only [hx]; rfl⟩
  | cons frame frames =>
    obtain ⟨p, depth⟩ := frame
    cases hpull : d.pull p w with
    | ok pulled w' =>
      cases pulled with
      | none => exact .inr ⟨_, .exhausted rfl hpull, fun l hx => by simp only [hx, hpull]; rfl⟩
      | some next =>
        exact .inl ⟨next.1, depth, _, .pulled rfl hpull, fun l hx => by
          simp only [hx, hpull]; rfl⟩
    | error trouble w' =>
      cases trouble with
      | failed failure =>
        exact .inr ⟨_, .failed rfl hpull, fun l hx => by simp only [hx, hpull]; rfl⟩
      | aborted fault =>
        exact .inr ⟨_, .aborted rfl hpull, fun l hx => by simp only [hx, hpull]; rfl⟩

/-- With the budget exceeded, containers are left and no entry is visited. -/
theorem stops_of_isExhausted {l : Limits} (hx : isExhausted l s.tally = true) :
    Stops d s (step d l s) := by
  obtain ⟨w, tally, frames, roots⟩ := s
  unfold step
  simp only [hx, if_true]
  cases frames with
  | cons frame frames =>
    have hne := List.cons_ne_nil frame frames
    simp only [leave]
    split
    · next hnone => exact .left hne hnone
    · next fault hsome => exact .refused hne hsome
  | nil =>
    cases roots with
    | nil => exact .ended rfl
    | cons root roots =>
      cases root with
      | unlistable failure => exact .unlistable rfl rfl
      | faulty fault => exact .faulty rfl rfl
      | entry e => exact .ended rfl

/-- What holds of stopping, of visiting the entry that comes and of doing without one holds of a
step. -/
@[elab_as_elim]
theorem step_elim {motive : Next world entry position → Prop} (l : Limits)
    (stops : isExhausted l s.tally = true → ∀ x, Stops d s x → motive x)
    (comes : isExhausted l s.tally = false →
      ∀ e depth s₁, Comes d s e depth s₁ → motive (visit d l e depth s₁))
    (idles : isExhausted l s.tally = false → ∀ x, Idles d s x → motive x) :
    motive (step d l s) := by
  cases hx : isExhausted l s.tally with
  | true => exact stops hx _ (stops_of_isExhausted d s hx)
  | false =>
    obtain ⟨e, depth, s₁, hcomes, hvisit⟩ | ⟨x, hidles, hstep⟩ := step_cases d s
    · rw [hvisit l hx]
      exact comes hx e depth s₁ hcomes
    · rw [hstep l hx]
      exact idles hx x hidles

end Steps

/-! ## Visits -/

section Visits

variable {d : Decoder world entry container position} {l : Limits}
variable {s s' : State world entry position} {e : entry} {depth : Nat}

theorem Comes.tally_eq (h : Comes d s e depth s') : s'.tally = s.tally := by
  cases h <;> rfl

theorem isExhausted_eq_false (hs : s.tally.entriesSeen ≤ l.budget) :
    isExhausted l s.tally = false :=
  decide_eq_false (Nat.not_lt.2 hs)

/-- Within the budget a step visits the entry that comes next. -/
theorem Comes.step_eq (h : Comes d s e depth s') (hs : s.tally.entriesSeen ≤ l.budget) :
    step d l s = visit d l e depth s' := by
  cases h with
  | root hframes hroots => rw [step_of_root hframes hroots hs]
  | pulled hframes hpull => rw [step_of_pull hframes hs, hpull]

theorem expand_congr {l' : Limits} (d : Decoder world entry container position)
    (hm : l.maxDepth = l'.maxDepth) (kind : EntryKind) (place : Provenance) (contents : container)
    (depth : Nat) (s : State world entry position) :
    expand d l kind place contents depth s = expand d l' kind place contents depth s := by
  unfold expand
  rw [hm]

/-- Visits within two budgets are the same. -/
theorem visit_congr {l' : Limits} (hm : l.maxDepth = l'.maxDepth)
    (hl : s.tally.entriesSeen < l.budget) (hl' : s.tally.entriesSeen < l'.budget) :
    visit d l e depth s = visit d l' e depth s := by
  simp only [visit_of_decode hl, visit_of_decode hl', expand_congr d hm]

/-- An entry beyond the budget is counted, and the limit is told or missed. -/
theorem visit_of_exceeded (hb : l.budget ≤ s.tally.entriesSeen) :
    visit d l e depth s =
      match l.maxEntries with
      | .unsaid => abort d .limitUnsaid { s with tally := s.tally.note .visited }
      | .atMost n => .continues
        { s with tally := (s.tally.note .visited).addLimit (d.placeOf e) (.entries n) } := by
  have hx : isExhausted l (s.tally.note .visited) = true :=
    decide_eq_true (Nat.lt_succ_of_le hb)
  simp only [Tally.note] at hx
  unfold visit
  simp only [State.mapTally, hx]
  rfl

theorem found?_expand (d : Decoder world entry container position) (l : Limits) (kind : EntryKind)
    (place : Provenance) (contents : container) (depth : Nat) (s : State world entry position) :
    (expand d l kind place contents depth s).found? = none := by
  unfold expand
  split
  · rfl
  · simp only
    split
    · rfl
    · split <;> rfl

/-- A class is found where its entry was decoded, within the budget. -/
theorem decode_of_visit_eq_found {o : Occurrence} (h : visit d l e depth s = .found o s') :
    d.decode e s.world = .ok (.definition o) s'.world ∧ s'.tally.entriesSeen ≤ l.budget := by
  by_cases hb : s.tally.entriesSeen < l.budget
  · rw [visit_of_decode hb] at h
    cases hd : d.decode e s.world with
    | ok decoded w =>
      rw [hd] at h
      cases decoded with
      | definition o' => cases h; exact ⟨rfl, hb⟩
      | container kind place contents =>
        have hnone := found?_expand d l kind place contents depth
          { s with world := w, tally := s.tally.note .visited }
        simp only at h
        rw [h] at hnone
        cases hnone
      | unrecognized name => cases h
    | error trouble w =>
      rw [hd] at h
      cases trouble <;> cases h
  · rw [visit_of_exceeded (Nat.not_lt.1 hb)] at h
    cases hl : l.maxEntries <;> rw [hl] at h <;> cases h

theorem decode_of_step_eq_found {o : Occurrence} (h : step d l s = .found o s') :
    (∃ e w, d.decode e w = .ok (.definition o) s'.world) ∧
      s'.tally.entriesSeen ≤ l.budget := by
  revert h
  refine step_elim d s l (fun _ x hstops h => ?_) (fun _ e depth s₁ _ h => ?_) fun _ x hidles h => ?_
  · subst h
    cases hstops
  · obtain ⟨hd, hb⟩ := decode_of_visit_eq_found h
    exact ⟨⟨e, s₁.world, hd⟩, hb⟩
  · subst h
    cases hidles

end Visits

/-! ## Ends of walks -/

/-- No container is open where a walk ends. -/
def Next.Settled : Next world entry position → Prop
  | continues _ | found _ _ => True
  | ended s | aborted _ s => s.frames = []

/-- What a visit can lead to, with such roots left: not the end of the walk short of a fault, and
no container is open after a fault. -/
def Next.OfVisit (roots : List (Root entry)) : Next world entry position → Prop
  | continues s | found _ s => s.roots = roots
  | ended _ => False
  | aborted _ s => s.frames = [] ∧ s.roots = roots

theorem Next.OfVisit.settled {roots : List (Root entry)} {x : Next world entry position}
    (h : x.OfVisit roots) : x.Settled := by
  cases x with
  | continues s | found o s => trivial
  | ended s => exact h.elim
  | aborted fault s => exact h.1

section Ends

variable (d : Decoder world entry container position) (l : Limits)

theorem ofVisit_expand (kind : EntryKind) (place : Provenance) (contents : container)
    (depth : Nat) (s : State world entry position) :
    (expand d l kind place contents depth s).OfVisit s.roots := by
  unfold expand
  split
  · exact ⟨rfl, rfl⟩
  · simp only
    split
    · rfl
    · split
      · rfl
      · rfl
      · exact ⟨rfl, rfl⟩

theorem ofVisit_visit (e : entry) (depth : Nat) (s : State world entry position) :
    (visit d l e depth s).OfVisit s.roots := by
  unfold visit
  simp only
  split
  · split
    · exact ⟨rfl, rfl⟩
    · rfl
  · split
    · rfl
    · exact ofVisit_expand ..
    · rfl
    · rfl
    · exact ⟨rfl, rfl⟩

theorem settled_step (s : State world entry position) : (step d l s).Settled := by
  refine step_elim d s l (fun _ x hstops => ?_) (fun _ _ _ _ _ => (ofVisit_visit ..).settled)
    fun _ x hidles => ?_
  · cases hstops with
    | left | unlistable => trivial
    | refused => rfl
    | faulty hframes | ended hframes => exact hframes
  · cases hidles with
    | ended hframes | faulty hframes => exact hframes
    | aborted => rfl
    | _ => trivial

variable {d l} {s s' : State world entry position}

/-- What leaving containers raises is raised by one of them. -/
theorem exists_closeFault? {frames : List (position × Nat)} {w : world} {fault : Fault}
    (h : closingFault? d frames w = some fault) : ∃ p w', d.closeFault? p w' = some fault := by
  induction frames generalizing w with
  | nil => cases h
  | cons f frames ih =>
    rcases Option.or_eq_some_iff.1 h with hfirst | ⟨-, hrest⟩
    · exact ⟨f.1, w, hfirst⟩
    · exact ih hrest

theorem frames_of_ended (h : step d l s = .ended s') : s'.frames = [] := by
  have hsettled := settled_step d l s
  rwa [h] at hsettled

theorem frames_of_aborted {fault : Fault} (h : step d l s = .aborted fault s') :
    s'.frames = [] := by
  have hsettled := settled_step d l s
  rwa [h] at hsettled

/-- A fault of the innermost container, as it is asked for its next entry, is the end of the walk,
and nothing is told of it. What leaving the other containers raises takes its place. -/
theorem occurrences_of_pull_aborted {p : position} {depth : Nat} {frames : List (position × Nat)}
    {fault : Fault} {w : world} (hframes : s.frames = (p, depth) :: frames)
    (hseen : s.tally.entriesSeen ≤ l.budget) (hpull : d.pull p s.world = .error (.aborted fault) w) :
    (occurrences d l none s).fault = some ((closingFault? d frames w).getD fault) ∧
      (occurrences d l none s).value = [] ∧
      (occurrences d l none s).tally = s.tally := by
  have hstep := step_of_pull (d := d) (l := l) hframes hseen
  rw [hpull] at hstep
  rw [occurrences_eq_step, hstep]
  exact ⟨rfl, rfl, rfl⟩

end Ends

end JndiScan.Walk
