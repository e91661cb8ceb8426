/-
Walks that are left before their end, because no more is wanted or because the budget is exceeded.
Whatever stops a walk, it has done the beginning of what the whole walk does, and then it closes the
containers that it is in. So it gives the first occurrences of the whole walk and has seen the
entries up to the last of them, and at its end, as at any other, no container is left open.
-/
import JndiScan.Proofs.Walk.Moves

namespace JndiScan.Walk

variable {world entry container position : Type}

/-! ## As far as it is wanted -/

section Wanted

variable (d : Decoder world entry container position) (l : Limits)

/-- The occurrences that are wanted are the first ones. -/
theorem value_of_wanted (k : Nat) (s : State world entry position) :
    (occurrences d l (some k) s).value = (occurrences d l none s).value.take k := by
  induction s using walk_induction d l generalizing k with
  | continues s s' h ih =>
    cases k with
    | zero => rw [occurrences_zero]; rfl
    | succ k =>
      rw [occurrences_of_wanted (by simp), occurrences_eq_step, h]
      exact ih (k + 1)
  | found s o s' h ih =>
    cases k with
    | zero => rw [occurrences_zero]; rfl
    | succ k =>
      rw [occurrences_of_wanted (by simp), occurrences_eq_step, h]
      exact congrArg (o :: ·) (ih k)
  | ended s s' h =>
    cases k with
    | zero => rw [occurrences_zero]; rfl
    | succ k => rw [occurrences_of_wanted (by simp), occurrences_eq_step, h]; rfl
  | aborted s fault s' h =>
    cases k with
    | zero => rw [occurrences_zero]; rfl
    | succ k => rw [occurrences_of_wanted (by simp), occurrences_eq_step, h]; rfl

variable {d l}

/-- A walk that finds less than is wanted is the whole walk. -/
theorem occurrences_of_length_lt {k : Nat} {s : State world entry position}
    (hk : (occurrences d l none s).value.length < k) :
    occurrences d l (some k) s = occurrences d l none s := by
  induction s using walk_induction d l generalizing k with
  | continues s s' h ih =>
    rw [occurrences_eq_step, h] at hk ⊢
    rw [occurrences_of_wanted (by rintro ⟨⟩; omega), h]
    exact ih hk
  | found s o s' h ih =>
    rw [occurrences_eq_step, h] at hk ⊢
    rw [occurrences_of_wanted (by rintro ⟨⟩; omega), h]
    have hrest := ih (k := k - 1) (by
      simp only [Next.occurrences, List.length_cons, Option.map_none] at hk
      omega)
    simp only [Next.occurrences, Option.map_some, Option.map_none, hrest]
  | ended s s' h =>
    rw [occurrences_eq_step, h, occurrences_of_wanted (by rintro ⟨⟩; omega), h]
    rfl
  | aborted s fault s' h =>
    rw [occurrences_eq_step, h, occurrences_of_wanted (by rintro ⟨⟩; omega), h]
    rfl

end Wanted

/-! ## Where a walk is left -/

/-- The moves of a walk up to its last wanted occurrence. -/
structure UpTo (k : Nat) (whole done : List (Move entry position)) : Prop where
  begins : done <+: whole
  length_found : (done.filterMap Move.found?).length = k
  last : done = [] ∨ ∃ e o, done.getLast? = some (.visited e (some o))

/-- After some moves all containers that they leave open are closed. -/
def LeftAfter (done moves : List (Move entry position)) : Prop :=
  ∃ inside, StillOpen done inside ∧ moves = done ++ inside.map (.left .closed)

section Left

variable {d : Decoder world entry container position} {l : Limits}
variable {s : State (world × List (Move entry position)) entry position}

/-- The last move was the visit of an entry with a class, within the budget. -/
def HasJustFound (l : Limits)
    (s : State (world × List (Move entry position)) entry position) : Prop :=
  (∃ e o, s.world.2.getLast? = some (.visited e (some o))) ∧ s.tally.entriesSeen ≤ l.budget

theorem hasJustFound_of_found {s' : State (world × List (Move entry position)) entry position}
    {o : Occurrence} (h : step d.tracked l s = .found o s') : HasJustFound l s' := by
  obtain ⟨⟨e, w, hdecode⟩, hb⟩ := decode_of_step_eq_found h
  have hmoves : s'.world.2 = w.2 ++ [.visited e (some o)] := keeping_eq_ok hdecode
  exact ⟨⟨e, o, by rw [hmoves, List.getLast?_concat]⟩, hb⟩

/-- A walk of which `k` occurrences are wanted is left in a state. -/
structure IsLeft (d : Decoder world entry container position) (l : Limits) (k : Nat)
    (s s' : State (world × List (Move entry position)) entry position) : Prop where
  goes : Goes l s.progress ((occurrences d.tracked l none s).value.take k) s'.progress
  closes : occurrences d.tracked l (some k) s =
    (s'.closeAll d.tracked).outcome ((occurrences d.tracked l none s).value.take k)
      (s'.leavingFault? d.tracked)
  begins : s'.world.2 <+: (occurrences d.tracked l none s).world.2
  last : k = 0 ∧ s' = s ∨ HasJustFound l s'

theorem IsLeft.zero (s : State (world × List (Move entry position)) entry position) :
    IsLeft d l 0 s s where
  goes := .here
  closes := occurrences_zero ..
  begins := (goes_occurrences l d none s).begins
  last := .inl ⟨rfl, rfl⟩

theorem IsLeft.of_continues {k : Nat} (hk : k ≠ 0)
    {s₁ s' : State (world × List (Move entry position)) entry position}
    (h : step d.tracked l s = .continues s₁) (hleft : IsLeft d l k s₁ s') :
    IsLeft d l k s s' := by
  have hwhole : occurrences d.tracked l none s = occurrences d.tracked l none s₁ := by
    rw [occurrences_eq_step, h]
    rfl
  have hnext := goes_step (d := d) l s
  rw [h] at hnext
  refine ⟨?_, ?_, ?_, .inr (hleft.last.resolve_left fun hzero => hk hzero.1)⟩
  · rw [hwhole]
    exact hnext.trans hleft.goes
  · rw [hwhole, occurrences_of_wanted (by simpa using hk), h]
    exact hleft.closes
  · rw [hwhole]
    exact hleft.begins

theorem IsLeft.of_found {k : Nat} {o : Occurrence}
    {s₁ s' : State (world × List (Move entry position)) entry position}
    (h : step d.tracked l s = .found o s₁) (hleft : IsLeft d l k s₁ s') :
    IsLeft d l (k + 1) s s' := by
  have hvalue : (occurrences d.tracked l none s).value =
      o :: (occurrences d.tracked l none s₁).value := by
    rw [occurrences_eq_step, h]
    rfl
  have hworld : (occurrences d.tracked l none s).world =
      (occurrences d.tracked l none s₁).world := by
    rw [occurrences_eq_step, h]
    rfl
  have hnext := goes_step (d := d) l s
  rw [h] at hnext
  refine ⟨?_, ?_, ?_, .inr ?_⟩
  · rw [hvalue]
    exact hnext.trans hleft.goes
  · rw [hvalue, occurrences_of_wanted (by simp), h]
    simp only [Next.occurrences, Option.map_some, Nat.add_sub_cancel, hleft.closes]
    rfl
  · rw [hworld]
    exact hleft.begins
  · obtain ⟨-, rfl⟩ | hlast := hleft.last
    · exact hasJustFound_of_found h
    · exact hlast

/-- Where a walk is left it has made the moves up to its last wanted occurrence. -/
theorem IsLeft.upTo {k : Nat} {s' : State (world × List (Move entry position)) entry position}
    (hleft : IsLeft d l k s s') (hmoves : s.world.2 = [])
    (hk : k ≤ (occurrences d.tracked l none s).value.length) :
    UpTo k (occurrences d.tracked l none s).world.2 s'.world.2 where
  begins := hleft.begins
  length_found := by
    have hfound : s'.world.2.filterMap Move.found? =
        s.world.2.filterMap Move.found? ++ (occurrences d.tracked l none s).value.take k :=
      hleft.goes.found_eq
    rw [hfound, hmoves, List.filterMap_nil, List.nil_append, List.length_take_of_le hk]
  last := by
    obtain ⟨-, rfl⟩ | ⟨hlast, -⟩ := hleft.last
    · exact .inl hmoves
    · exact .inr hlast

/-- No entry exceeded the budget until there. -/
theorem IsLeft.entriesSeen_eq {k : Nat}
    {s' : State (world × List (Move entry position)) entry position}
    (hleft : IsLeft d l k s s') (hmoves : s.world.2 = []) :
    s'.tally.entriesSeen = s.tally.entriesSeen + visits s'.world.2 := by
  have hseen : s'.tally.entriesSeen + visits s.world.2 =
      s.tally.entriesSeen + visits s'.world.2 +
        if s.tally.entriesSeen ≤ l.budget ∧ l.budget < s'.tally.entriesSeen then 1 else 0 :=
    hleft.goes.seen_eq
  have hwithin : ¬ (s.tally.entriesSeen ≤ l.budget ∧ l.budget < s'.tally.entriesSeen) := by
    obtain ⟨-, rfl⟩ | ⟨-, hb⟩ := hleft.last
    · exact fun h => absurd h.1 (Nat.not_le.2 h.2)
    · exact fun h => absurd hb (Nat.not_le.2 h.2)
  rw [if_neg hwithin, hmoves] at hseen
  exact hseen

/-- A walk of which no more is wanted than it finds is left where it found the last of it. -/
theorem exists_isLeft {k : Nat} (hk : k ≤ (occurrences d.tracked l none s).value.length) :
    ∃ s', IsLeft d l k s s' := by
  induction s using walk_induction d.tracked l generalizing k with
  | continues s s₁ h ih =>
    rw [occurrences_eq_step, h] at hk
    obtain ⟨s', hleft⟩ := ih hk
    cases k with
    | zero => exact ⟨s, .zero s⟩
    | succ k => exact ⟨s', hleft.of_continues (Nat.succ_ne_zero k) h⟩
  | found s o s₁ h ih =>
    rw [occurrences_eq_step, h] at hk
    cases k with
    | zero => exact ⟨s, .zero s⟩
    | succ k =>
      obtain ⟨s', hleft⟩ := ih (Nat.le_of_succ_le_succ hk)
      exact ⟨s', hleft.of_found h⟩
  | ended s s' h =>
    rw [occurrences_eq_step, h] at hk
    cases Nat.le_zero.1 hk
    exact ⟨s, .zero s⟩
  | aborted s fault s' h =>
    rw [occurrences_eq_step, h] at hk
    cases Nat.le_zero.1 hk
    exact ⟨s, .zero s⟩

end Left

/-! ## As far as the budget lasts -/

section Budgets

variable {d : Decoder world entry container position} {l l' : Limits}
variable {s : State (world × List (Move entry position)) entry position}

/-- A walk finds nothing more, and only closes what is open. -/
def OnlyCloses (s : State (world × List (Move entry position)) entry position)
    (r : Outcome (List Occurrence) (world × List (Move entry position))) : Prop :=
  r.value = [] ∧ r.world.2 = s.world.2 ++ (s.frames.map Prod.fst).map (.left .closed)

/-- Where the opened containers were just closed there is nothing left to close. -/
theorem OnlyCloses.of_closeAll
    {r : Outcome (List Occurrence) (world × List (Move entry position))}
    (h : OnlyCloses (s.closeAll d.tracked) r) : OnlyCloses s r := by
  refine ⟨h.1, ?_⟩
  rw [h.2, moves_closeAll]
  exact List.append_nil _

theorem onlyCloses_of_isExhausted (hx : isExhausted l s.tally = true) :
    OnlyCloses s (occurrences d.tracked l none s) := by
  induction s using walk_induction d.tracked l with
  | continues s s' h ih =>
    have hstops := stops_of_isExhausted d.tracked s hx
    rw [occurrences_eq_step, h]
    rw [h] at hstops
    cases hstops with
    | left => exact (ih hx).of_closeAll
    | unlistable => exact ih hx
  | found s o s' h ih =>
    have hstops := stops_of_isExhausted d.tracked s hx
    rw [h] at hstops
    cases hstops
  | ended s s' h =>
    have hstops := stops_of_isExhausted d.tracked s hx
    rw [occurrences_eq_step, h]
    rw [h] at hstops
    cases hstops with
    | ended hframes =>
      refine ⟨rfl, ?_⟩
      rw [hframes]
      exact (List.append_nil _).symm
  | aborted s fault s' h =>
    have hstops := stops_of_isExhausted d.tracked s hx
    rw [occurrences_eq_step, h]
    rw [h] at hstops
    cases hstops with
    | refused => exact ⟨rfl, moves_closeAll d s⟩
    | faulty hframes =>
      refine ⟨rfl, ?_⟩
      rw [hframes]
      exact (List.append_nil _).symm

/-- The visit of the entry that exceeds the budget is the last thing that a walk does. -/
theorem onlyCloses_of_visit {e : entry} {depth : Nat} (hb : l.budget ≤ s.tally.entriesSeen) :
    OnlyCloses s ((visit d.tracked l e depth s).occurrences d.tracked l none) := by
  rw [visit_of_exceeded hb]
  cases l.maxEntries with
  | unsaid => exact ⟨rfl, moves_closeAll d s⟩
  | atMost n =>
    have hx : isExhausted l (s.tally.note .visited) = true :=
      decide_eq_true (Nat.lt_succ_of_le hb)
    exact onlyCloses_of_isExhausted (s := { s with
      tally := (s.tally.note .visited).addLimit (d.tracked.placeOf e) (.entries n) }) hx

theorem begins_occurrences
    (x : Next (world × List (Move entry position)) entry position) :
    x.state.world.2 <+: (x.occurrences d.tracked l none).world.2 := by
  cases x with
  | continues s | found o s => exact (goes_occurrences l d none s).begins
  | ended s | aborted fault s => exact List.prefix_refl _

/-- A step under a smaller budget is the same, or from a state that the larger budget comes to as
well the walk only closes what is open. -/
theorem step_eq_or_onlyCloses (d : Decoder world entry container position)
    (hm : l.maxDepth = l'.maxDepth) (hb : l.budget ≤ l'.budget)
    (s : State (world × List (Move entry position)) entry position) :
    step d.tracked l s = step d.tracked l' s ∨
      ∃ s₁, Goes l s.progress [] s₁.progress ∧ OnlyCloses s₁ (occurrences d.tracked l none s) ∧
        s₁.world.2 <+: (occurrences d.tracked l' none s).world.2 := by
  cases hx : isExhausted l s.tally with
  | true =>
    exact .inr ⟨s, .here, onlyCloses_of_isExhausted hx, (goes_occurrences l' d none s).begins⟩
  | false =>
    have hs : s.tally.entriesSeen ≤ l.budget := by simpa [isExhausted] using hx
    have hx' := isExhausted_eq_false (Nat.le_trans hs hb)
    obtain ⟨e, depth, s₁, hcomes, hvisit⟩ | ⟨x, -, hstep⟩ := step_cases d.tracked s
    · rw [← hcomes.tally_eq] at hs
      rw [hvisit l hx, hvisit l' hx']
      rcases Nat.lt_or_eq_of_le hs with hlt | heq
      · exact .inl (visit_congr hm hlt (Nat.lt_of_lt_of_le hlt hb))
      · refine .inr ⟨s₁, hcomes.goes l, ?_, ?_⟩
        · rw [occurrences_eq_step, hvisit l hx]
          exact onlyCloses_of_visit (Nat.le_of_eq heq.symm)
        · rw [occurrences_eq_step, hvisit l' hx']
          exact (goes_visit d l' e depth (Nat.le_trans hs hb)).begins.trans
            (begins_occurrences _)
    · exact .inl ((hstep l hx).trans (hstep l' hx').symm)

/-- A walk does the beginning of what another one does, and then closes what is open. -/
structure CutShort (r r' : Outcome (List Occurrence) (world × List (Move entry position))) :
    Prop where
  value : r.value <+: r'.value
  moves : ∃ done, done <+: r'.world.2 ∧ LeftAfter done r.world.2

theorem CutShort.refl {r : Outcome (List Occurrence) (world × List (Move entry position))}
    (hopen : StillOpen r.world.2 []) : CutShort r r :=
  ⟨List.prefix_refl _, r.world.2, List.prefix_refl _, [], hopen, (List.append_nil _).symm⟩

theorem cutShort_or_step_eq (hm : l.maxDepth = l'.maxDepth) (hb : l.budget ≤ l'.budget)
    (hopen : StillOpen s.world.2 (s.frames.map Prod.fst)) :
    CutShort (occurrences d.tracked l none s) (occurrences d.tracked l' none s) ∨
      step d.tracked l s = step d.tracked l' s := by
  obtain hsame | ⟨s₁, hgoes, ⟨hvalue, hmoves⟩, hbegins⟩ := step_eq_or_onlyCloses d hm hb s
  · exact .inr hsame
  · refine .inl ⟨?_, s₁.world.2, hbegins, s₁.frames.map Prod.fst, hgoes.stillOpen hopen, hmoves⟩
    rw [hvalue]
    exact List.nil_prefix

/-- Under a smaller budget a walk is cut short. -/
theorem cutShort_of_budget_le (hm : l.maxDepth = l'.maxDepth) (hb : l.budget ≤ l'.budget)
    (hopen : StillOpen s.world.2 (s.frames.map Prod.fst)) :
    CutShort (occurrences d.tracked l none s) (occurrences d.tracked l' none s) := by
  have hstill : StillOpen (step d.tracked l' s).state.world.2
      ((step d.tracked l' s).state.frames.map Prod.fst) := (goes_step l' s).stillOpen hopen
  induction s using walk_induction d.tracked l' with
  | continues s s' h ih =>
    obtain hcut | hstep := cutShort_or_step_eq (d := d) hm hb hopen
    · exact hcut
    · rw [h] at hstill
      rw [occurrences_eq_step, hstep, occurrences_eq_step d.tracked l' s, h]
      exact ih hstill ((goes_step l' s').stillOpen hstill)
  | found s o s' h ih =>
    obtain hcut | hstep := cutShort_or_step_eq (d := d) hm hb hopen
    · exact hcut
    · rw [h] at hstill
      rw [occurrences_eq_step, hstep, occurrences_eq_step d.tracked l' s, h]
      obtain ⟨hvalue, hmoves⟩ := ih hstill ((goes_step l' s').stillOpen hstill)
      exact ⟨List.cons_prefix_cons.2 ⟨rfl, hvalue⟩, hmoves⟩
  | ended s s' h =>
    obtain hcut | hstep := cutShort_or_step_eq (d := d) hm hb hopen
    · exact hcut
    · rw [h, Next.state, frames_of_ended h] at hstill
      rw [occurrences_eq_step, hstep, occurrences_eq_step d.tracked l' s, h]
      exact .refl hstill
  | aborted s fault s' h =>
    obtain hcut | hstep := cutShort_or_step_eq (d := d) hm hb hopen
    · exact hcut
    · rw [h, Next.state, frames_of_aborted h] at hstill
      rw [occurrences_eq_step, hstep, occurrences_eq_step d.tracked l' s, h]
      exact .refl hstill

end Budgets

/-! ## Whole walks and walks that are left -/

section Plain

variable (d : Decoder world entry container position) (l : Limits) (wanted : Option Nat)
variable {s : State world entry position}

theorem seen_eq_tracked (s : State world entry position) :
    (occurrences d l wanted s).tally.entriesSeen =
      (occurrences d.tracked l wanted s.tracked).tally.entriesSeen :=
  have h := (occurrences_eq_tracked d l wanted s).2.1
  show Tally.entriesSeen (Tally.quiet _) = Tally.entriesSeen (Tally.quiet _) from
    congrArg Tally.entriesSeen h

theorem stillOpen_of_nil {s : State (world × List (Move entry position)) entry position}
    (hmoves : s.world.2 = []) (hframes : s.frames = []) :
    StillOpen s.world.2 (s.frames.map Prod.fst) := by
  rw [hmoves, hframes]
  exact .nil

/-- The classes found are those of the moves. -/
theorem filterMap_moves (s : State world entry position) :
    (moves d l wanted s).filterMap Move.found? = (occurrences d l wanted s).value := by
  rw [(occurrences_eq_tracked d l wanted s).1]
  exact (goes_occurrences l d wanted s.tracked).found_eq

/-- At the end of a walk no container is left open. -/
theorem stillOpen_moves (hs : s.frames = []) : StillOpen (moves d l wanted s) [] :=
  (goes_occurrences l d wanted s.tracked).stillOpen (stillOpen_of_nil (s := s.tracked) rfl hs)

/-- The entries seen are those visited, and the one that exceeded the budget. -/
theorem entriesSeen_eq (s : State world entry position) :
    let r := occurrences d l wanted s
    r.tally.entriesSeen = s.tally.entriesSeen + visits (moves d l wanted s) +
      if s.tally.entriesSeen ≤ l.budget ∧ l.budget < r.tally.entriesSeen then 1 else 0 := by
  intro r
  have hseen := (goes_occurrences l d wanted s.tracked).seen_eq
  simp only [r, seen_eq_tracked d l wanted s]
  exact hseen

theorem moves_of_length_lt {k : Nat} (hk : (occurrences d l none s).value.length < k) :
    moves d l (some k) s = moves d l none s := by
  rw [(occurrences_eq_tracked d l none s).1] at hk
  rw [moves, moves, occurrences_of_length_lt hk]

/-- A walk of which `k` occurrences are wanted, and that has as many, does what the whole walk does
up to the last of them, and then closes what is open. Only that can raise a fault. -/
theorem exists_upTo (hs : s.frames = []) {k : Nat}
    (hk : k ≤ (occurrences d l none s).value.length) :
    ∃ done, UpTo k (moves d l none s) done ∧ LeftAfter done (moves d l (some k) s) ∧
      (occurrences d l (some k) s).tally.entriesSeen = s.tally.entriesSeen + visits done ∧
      ∀ fault, (occurrences d l (some k) s).fault = some fault →
        ∃ p w, d.closeFault? p w = some fault := by
  obtain ⟨-, -, -, hfault⟩ := occurrences_eq_tracked d l (some k) s
  rw [(occurrences_eq_tracked d l none s).1] at hk
  obtain ⟨s', hleft⟩ := exists_isLeft hk
  refine ⟨s'.world.2, hleft.upTo rfl hk, ⟨s'.frames.map Prod.fst, ?_, ?_⟩, ?_, ?_⟩
  · exact hleft.goes.stillOpen (stillOpen_of_nil (s := s.tracked) rfl hs)
  · rw [moves, hleft.closes]
    exact moves_closeAll d s'
  · rw [seen_eq_tracked, hleft.closes]
    exact hleft.entriesSeen_eq rfl
  · intro fault hraised
    rw [hfault, hleft.closes] at hraised
    obtain ⟨p, w, hclosing⟩ := exists_closeFault? hraised
    exact ⟨p, w.1, hclosing⟩

/-- Under a smaller budget a walk gives the first occurrences of what it gives under a larger one.
It does the beginning of what it does there, and then closes what is open. -/
theorem moves_of_budget_le {l' : Limits} (hm : l.maxDepth = l'.maxDepth)
    (hb : l.budget ≤ l'.budget) (hs : s.frames = []) :
    (occurrences d l none s).value <+: (occurrences d l' none s).value ∧
      ∃ done, done <+: moves d l' none s ∧ LeftAfter done (moves d l none s) := by
  have hopen := stillOpen_of_nil (s := s.tracked) rfl hs
  obtain ⟨hvalue, hmoves⟩ := cutShort_of_budget_le (d := d) hm hb hopen
  rw [(occurrences_eq_tracked d l none s).1, (occurrences_eq_tracked d l' none s).1]
  exact ⟨hvalue, hmoves⟩

end Plain

end JndiScan.Walk
