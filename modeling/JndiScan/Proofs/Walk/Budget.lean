/-
The budget of entries cuts walks short. As far as it lasts, a walk goes as it goes under any other
budget; the first entry beyond it is counted, told once and not decoded, and from then on nothing
is visited. So of what happens without a limit exactly the beginning happens, also over several
walks that share what was met, and a larger budget only adds at the end.
-/
import JndiScan.Proofs.Check.Verdict
import JndiScan.Proofs.Walk.Count

namespace JndiScan.Walk

variable {world entry container position : Type}
variable {d : Decoder world entry container position} {m : Limit} {n n' : Int}

/-! ## What whole walks do to the count -/

namespace Count

/-- The count of walks that began with nothing seen: an entry beyond the limit is seen and told at
most once, and those within it are handed on. -/
structure Fits (n : Int) (c : Count entry) : Prop where
  seen_le : c.seen ≤ n.toNat + 1
  length_handed : c.handed.length = min c.seen n.toNat
  told_eq : c.told = if n.toNat < c.seen then 1 else 0

theorem Fits.step {c c' : Count entry} (h : c.Fits n) (hs : c.Step n c') : c'.Fits n := by
  obtain ⟨hseen, hhanded, htold⟩ := h
  cases hs with
  | idle => exact ⟨hseen, hhanded, htold⟩
  | visit e hlt =>
    refine ⟨by simp only; omega, by simp [hhanded]; omega, ?_⟩
    rw [htold, if_neg (by omega), if_neg (by simp only; omega)]
  | cut heq =>
    refine ⟨by simp only; omega, by simp only [hhanded]; omega, ?_⟩
    rw [htold, if_neg (by omega), if_pos (by simp only; omega)]

/-- A count that comes later. -/
structure Before (c c' : Count entry) : Prop where
  seen_le : c.seen ≤ c'.seen
  handed_prefix : c.handed <+: c'.handed

theorem Before.refl (c : Count entry) : c.Before c := ⟨Nat.le_refl _, List.prefix_refl _⟩

theorem Before.step {c c' c'' : Count entry} (h : c.Before c') (hs : c'.Step n c'') :
    c.Before c'' := by
  obtain ⟨hseen, hhanded⟩ := h
  cases hs with
  | idle => exact ⟨hseen, hhanded⟩
  | visit e hlt => exact ⟨Nat.le_succ_of_le hseen, hhanded.trans (List.prefix_append ..)⟩
  | cut heq => exact ⟨Nat.le_succ_of_le hseen, hhanded⟩

end Count

section Runs

variable {starts : List (Start (world × List (Call entry container)) entry)} {tally : Tally}
variable {w : world × List (Call entry container)}

theorem before_occurrences (s : State (world × List (Call entry container)) entry position) :
    let r := occurrences d.recorded ⟨m, .atMost n⟩ none s
    (count n s.tally s.world.2).Before (count n r.tally r.world.2) :=
  occurrences_keeps (P := fun t w => (count n s.tally s.world.2).Before (count n t w.2))
    (fun s' h => h.step (step_count d m n s')) (.refl _)

theorem seen_le_occurrences
    (x : Next (world × List (Call entry container)) entry position) :
    x.state.tally.entriesSeen ≤
      (x.occurrences d.recorded ⟨m, .atMost n⟩ none).tally.entriesSeen := by
  cases x with
  | continues s | found o s => exact (before_occurrences s).seen_le
  | ended s | aborted fault s => exact Nat.le_refl _

theorem before_occurrencesInTurn :
    let r := occurrencesInTurn d.recorded ⟨m, .atMost n⟩ starts tally w
    (count n tally w.2).Before (count n r.tally r.world.2) :=
  occurrencesInTurn_keeps (P := fun t w' => (count n tally w.2).Before (count n t w'.2))
    (fun s h => h.step (step_count d m n s)) (.refl _)

theorem fits_occurrencesInTurn (h : (count n tally w.2).Fits n) :
    let r := occurrencesInTurn d.recorded ⟨m, .atMost n⟩ starts tally w
    (count n r.tally r.world.2).Fits n :=
  occurrencesInTurn_keeps (P := fun t w => (count n t w.2).Fits n)
    (fun s h => h.step (step_count d m n s)) h

/-- Once the budget is exceeded, a walk visits nothing and finds nothing. -/
theorem occurrences_of_exceeded
    (s : State (world × List (Call entry container)) entry position)
    (hs : n.toNat < s.tally.entriesSeen) :
    let r := occurrences d.recorded ⟨m, .atMost n⟩ none s
    r.value = [] ∧ count n r.tally r.world.2 = count n s.tally s.world.2 := by
  have hidle : ∀ s : State (world × List (Call entry container)) entry position,
      n.toNat < s.tally.entriesSeen → (step d.recorded ⟨m, .atMost n⟩ s).Idle s :=
    fun s hs => step_of_isExhausted (decide_eq_true hs)
  induction s using walk_induction d.recorded ⟨m, .atMost n⟩ with
  | continues s s' h ih =>
    have hcount := (hidle s hs).count_eq n
    rw [h] at hcount
    have hseen : s'.tally.entriesSeen = s.tally.entriesSeen := congrArg Count.seen hcount
    rw [occurrences_eq_step, h]
    obtain ⟨hvalue, hrest⟩ := ih (by rwa [hseen])
    exact ⟨hvalue, hrest.trans hcount⟩
  | found s o s' h ih =>
    have hfound := (hidle s hs).found?_eq
    rw [h] at hfound
    cases hfound
  | ended s s' h =>
    have hcount := (hidle s hs).count_eq n
    rw [h] at hcount
    rw [occurrences_eq_step, h]
    exact ⟨rfl, hcount⟩
  | aborted s fault s' h =>
    have hcount := (hidle s hs).count_eq n
    rw [h] at hcount
    rw [occurrences_eq_step, h]
    exact ⟨rfl, hcount⟩

theorem occurrencesFrom_of_exceeded (start : Start (world × List (Call entry container)) entry)
    (ht : n.toNat < tally.entriesSeen) :
    let r := occurrencesFrom d.recorded ⟨m, .atMost n⟩ start tally w
    r.value = [] ∧ count n r.tally r.world.2 = count n tally w.2 := by
  unfold occurrencesFrom
  cases start w with
  | error fault => exact ⟨rfl, rfl⟩
  | ok roots => exact occurrences_of_exceeded { world := w, tally, roots } ht

theorem occurrencesInTurn_of_exceeded
    (starts : List (Start (world × List (Call entry container)) entry))
    (ht : n.toNat < tally.entriesSeen) :
    let r := occurrencesInTurn d.recorded ⟨m, .atMost n⟩ starts tally w
    r.value = [] ∧ count n r.tally r.world.2 = count n tally w.2 := by
  induction starts generalizing tally w with
  | nil => exact ⟨rfl, rfl⟩
  | cons start starts ih =>
    obtain ⟨hvalue, hcount⟩ := occurrencesFrom_of_exceeded (d := d) (m := m) (w := w) start ht
    have hseen : (occurrencesFrom d.recorded ⟨m, .atMost n⟩ start tally w).tally.entriesSeen =
      tally.entriesSeen := congrArg Count.seen hcount
    simp only [occurrencesInTurn, Outcome.andThen]
    cases (occurrencesFrom d.recorded ⟨m, .atMost n⟩ start tally w).fault with
    | some fault => exact ⟨hvalue, hcount⟩
    | none =>
      obtain ⟨hv, hc⟩ := ih (by rwa [hseen])
      exact ⟨by simp only [hvalue, hv]; rfl, hc.trans hcount⟩

end Runs

/-! ## Two budgets -/

/-- A run was not cut at `n` entries and is all of another one, or it was, and holds the beginning
of the other one. -/
def CutOf (n : Int) (r r' : Outcome (List Occurrence) (world × List (Call entry container))) :
    Prop :=
  (r = r' ∧ r.tally.entriesSeen ≤ n.toNat) ∨
    (n.toNat < r.tally.entriesSeen ∧ n.toNat < r'.tally.entriesSeen ∧ r.value <+: r'.value ∧
      handed r.world.2 <+: handed r'.world.2)

theorem CutOf.value_begins {r r' : Outcome (List Occurrence) (world × List (Call entry container))}
    (h : CutOf n r r') : r.value <+: r'.value := by
  obtain ⟨rfl, -⟩ | ⟨-, -, hvalue, -⟩ := h
  · exact List.prefix_refl _
  · exact hvalue

theorem CutOf.refl (n : Int) (r : Outcome (List Occurrence) (world × List (Call entry container))) :
    CutOf n r r := by
  by_cases hs : r.tally.entriesSeen ≤ n.toNat
  · exact .inl ⟨rfl, hs⟩
  · have hs := Nat.not_le.1 hs
    exact .inr ⟨hs, hs, List.prefix_refl _, List.prefix_refl _⟩

/-- Within both budgets a step is the same, or it visits the entry at which the smaller one ends. -/
theorem step_eq_or_cut (d : Decoder world entry container position) (m : Limit)
    (hn : n.toNat ≤ n'.toNat) {s : State (world × List (Call entry container)) entry position}
    (hs : s.tally.entriesSeen ≤ n.toNat) :
    (step d.recorded ⟨m, .atMost n⟩ s = step d.recorded ⟨m, .atMost n'⟩ s ∧
      (step d.recorded ⟨m, .atMost n'⟩ s).state.tally.entriesSeen ≤ n.toNat) ∨
    ∃ s₁, step d.recorded ⟨m, .atMost n⟩ s = .continues s₁ ∧
      n.toNat < s₁.tally.entriesSeen ∧ s₁.world.2 = s.world.2 ∧
      n.toNat < (step d.recorded ⟨m, .atMost n'⟩ s).state.tally.entriesSeen := by
  have hx := isExhausted_eq_false (l := ⟨m, .atMost n⟩) hs
  have hx' := isExhausted_eq_false (l := ⟨m, .atMost n'⟩) (Nat.le_trans hs hn)
  obtain ⟨e, depth, s₁, hcomes, hvisit⟩ | ⟨y, hidles, hy⟩ := step_cases d.recorded s
  · rw [hvisit _ hx, hvisit _ hx']
    rw [← hcomes.tally_eq] at hs
    have hcount : s₁.tally.entriesSeen < n'.toNat →
        (visit d.recorded ⟨m, .atMost n'⟩ e depth s₁).state.tally.entriesSeen =
          s₁.tally.entriesSeen + 1 :=
      fun hlt => congrArg Count.seen (count_visit (n := n') (l := ⟨m, .atMost n'⟩) hlt)
    rcases Nat.lt_or_eq_of_le hs with hlt | heq
    · have hlt' := Nat.lt_of_lt_of_le hlt hn
      exact .inl ⟨visit_congr rfl hlt hlt', by rw [hcount hlt']; exact hlt⟩
    · refine .inr ⟨_, visit_of_eq heq, Nat.lt_succ_of_le (Nat.le_of_eq heq.symm),
        hcomes.calls_eq, ?_⟩
      rcases Nat.lt_or_eq_of_le hn with hlt' | heq'
      · rw [hcount (heq ▸ hlt'), heq]
        exact Nat.lt_succ_self _
      · rw [visit_of_eq (heq.trans heq')]
        exact Nat.lt_succ_of_le (Nat.le_of_eq heq.symm)
  · have hseen : y.state.tally.entriesSeen = s.tally.entriesSeen :=
      congrArg Count.seen (hidles.idle.count_eq n)
    exact .inl ⟨(hy _ hx).trans (hy _ hx').symm, by rw [hy _ hx', hseen]; exact hs⟩

/-- A run that goes on with the budget exceeded is cut there. -/
theorem CutOf.of_exceeded {s : State (world × List (Call entry container)) entry position}
    {r' : Outcome (List Occurrence) (world × List (Call entry container))}
    (hs : n.toNat < s.tally.entriesSeen) (hr : n.toNat < r'.tally.entriesSeen)
    (hw : handed s.world.2 <+: handed r'.world.2) :
    CutOf n (occurrences d.recorded ⟨m, .atMost n⟩ none s) r' := by
  obtain ⟨hvalue, hcount⟩ := occurrences_of_exceeded (d := d) (m := m) s hs
  simp only [count, Count.mk.injEq] at hcount
  obtain ⟨hseen, hhanded, -⟩ := hcount
  refine .inr ⟨by rwa [hseen], hr, ?_, by rwa [hhanded]⟩
  rw [hvalue]
  exact List.nil_prefix

theorem cut_or_step_eq (d : Decoder world entry container position) (m : Limit)
    (hn : n.toNat ≤ n'.toNat) (s : State (world × List (Call entry container)) entry position) :
    CutOf n (occurrences d.recorded ⟨m, .atMost n⟩ none s)
        (occurrences d.recorded ⟨m, .atMost n'⟩ none s) ∨
      (step d.recorded ⟨m, .atMost n⟩ s = step d.recorded ⟨m, .atMost n'⟩ s ∧
        (step d.recorded ⟨m, .atMost n'⟩ s).state.tally.entriesSeen ≤ n.toNat) := by
  obtain ⟨hseen, hhanded⟩ := before_occurrences (d := d) (m := m) (n := n') s
  by_cases hs : s.tally.entriesSeen ≤ n.toNat
  · obtain hsame | ⟨s₁, hstep, hs₁, hcalls, hnext⟩ := step_eq_or_cut d m hn hs
    · exact .inr hsame
    · left
      rw [occurrences_eq_step, hstep]
      refine CutOf.of_exceeded hs₁ (Nat.lt_of_lt_of_le hnext ?_) ?_
      · rw [occurrences_eq_step]
        exact seen_le_occurrences _
      · rw [hcalls]
        exact hhanded
  · have hs := Nat.not_le.1 hs
    exact .inl (CutOf.of_exceeded hs (Nat.lt_of_lt_of_le hs hseen) hhanded)

/-- Of a walk under two budgets, the one under the smaller budget is all of the other or its
beginning. -/
theorem occurrences_cutOf (d : Decoder world entry container position) (m : Limit)
    (hn : n.toNat ≤ n'.toNat) (s : State (world × List (Call entry container)) entry position) :
    CutOf n (occurrences d.recorded ⟨m, .atMost n⟩ none s)
      (occurrences d.recorded ⟨m, .atMost n'⟩ none s) := by
  induction s using walk_induction d.recorded ⟨m, .atMost n'⟩ with
  | continues s s' h ih =>
    obtain hcut | ⟨hstep, -⟩ := cut_or_step_eq d m hn s
    · exact hcut
    · rw [occurrences_eq_step, hstep, occurrences_eq_step d.recorded ⟨m, .atMost n'⟩ s, h]
      exact ih
  | found s o s' h ih =>
    obtain hcut | ⟨hstep, -⟩ := cut_or_step_eq d m hn s
    · exact hcut
    · rw [occurrences_eq_step, hstep, occurrences_eq_step d.recorded ⟨m, .atMost n'⟩ s, h]
      obtain ⟨hsame, hseen⟩ | ⟨hseen, hseen', hvalue, hhanded⟩ := ih
      · exact .inl ⟨by simp only [Next.occurrences, Option.map_none, hsame], hseen⟩
      · exact .inr ⟨hseen, hseen', List.cons_prefix_cons.2 ⟨rfl, hvalue⟩, hhanded⟩
  | ended s s' h =>
    obtain hcut | ⟨hstep, hseen⟩ := cut_or_step_eq d m hn s
    · exact hcut
    · rw [h] at hseen
      rw [occurrences_eq_step, hstep, occurrences_eq_step d.recorded ⟨m, .atMost n'⟩ s, h]
      exact .inl ⟨rfl, hseen⟩
  | aborted s fault s' h =>
    obtain hcut | ⟨hstep, hseen⟩ := cut_or_step_eq d m hn s
    · exact hcut
    · rw [h] at hseen
      rw [occurrences_eq_step, hstep, occurrences_eq_step d.recorded ⟨m, .atMost n'⟩ s, h]
      exact .inl ⟨rfl, hseen⟩

section Turns

variable {tally : Tally} {w : world × List (Call entry container)}
variable {starts : List (Start (world × List (Call entry container)) entry)}

theorem occurrencesFrom_cutOf (d : Decoder world entry container position) (m : Limit)
    (hn : n.toNat ≤ n'.toNat) (start : Start (world × List (Call entry container)) entry)
    (tally : Tally) (w : world × List (Call entry container)) :
    CutOf n (occurrencesFrom d.recorded ⟨m, .atMost n⟩ start tally w)
      (occurrencesFrom d.recorded ⟨m, .atMost n'⟩ start tally w) := by
  unfold occurrencesFrom
  cases start w with
  | ok roots => exact occurrences_cutOf d m hn _
  | error fault => exact .refl ..

/-- After walks that exceeded the budget nothing comes. -/
theorem andThen_of_exceeded (starts : List (Start (world × List (Call entry container)) entry))
    {r : Outcome (List Occurrence) (world × List (Call entry container))}
    (h : n.toNat < r.tally.entriesSeen) :
    let r' := r.andThen (occurrencesInTurn d.recorded ⟨m, .atMost n⟩ starts)
    r'.value = r.value ∧ count n r'.tally r'.world.2 = count n r.tally r.world.2 := by
  unfold Outcome.andThen
  cases r.fault with
  | some fault => exact ⟨rfl, rfl⟩
  | none =>
    obtain ⟨hvalue, hcount⟩ := occurrencesInTurn_of_exceeded (d := d) (m := m) starts
      (w := r.world) h
    exact ⟨by simp only [hvalue, List.append_nil], hcount⟩

theorem before_andThen (starts : List (Start (world × List (Call entry container)) entry))
    (r : Outcome (List Occurrence) (world × List (Call entry container))) :
    let r' := r.andThen (occurrencesInTurn d.recorded ⟨m, .atMost n⟩ starts)
    r.value <+: r'.value ∧ (count n r.tally r.world.2).Before (count n r'.tally r'.world.2) := by
  unfold Outcome.andThen
  cases r.fault with
  | some fault => exact ⟨List.prefix_refl _, .refl _⟩
  | none => exact ⟨List.prefix_append .., before_occurrencesInTurn⟩

theorem CutOf.andThen {r r' : Outcome (List Occurrence) (world × List (Call entry container))}
    (h : CutOf n r r')
    (ih : ∀ tally w, CutOf n (occurrencesInTurn d.recorded ⟨m, .atMost n⟩ starts tally w)
      (occurrencesInTurn d.recorded ⟨m, .atMost n'⟩ starts tally w)) :
    CutOf n (r.andThen (occurrencesInTurn d.recorded ⟨m, .atMost n⟩ starts))
      (r'.andThen (occurrencesInTurn d.recorded ⟨m, .atMost n'⟩ starts)) := by
  obtain ⟨rfl, hseen⟩ | ⟨hseen, hseen', hvalue, hhanded⟩ := h
  · unfold Outcome.andThen
    cases r.fault with
    | some fault => exact .refl ..
    | none =>
      obtain ⟨hsame, hs⟩ | ⟨hs, hs', hv, hh⟩ := ih r.tally r.world
      · exact .inl ⟨by simp only [hsame], hs⟩
      · exact .inr ⟨hs, hs', (List.prefix_append_right_inj _).2 hv, hh⟩
  · obtain ⟨hv, hcount⟩ := andThen_of_exceeded (d := d) (m := m) starts hseen
    obtain ⟨hv', hs', hh'⟩ := before_andThen (d := d) (m := m) (n := n') starts r'
    simp only [count, Count.mk.injEq] at hcount
    obtain ⟨hs, hh, -⟩ := hcount
    refine .inr ⟨by rwa [hs], Nat.lt_of_lt_of_le hseen' hs', ?_, ?_⟩
    · rw [hv]
      exact hvalue.trans hv'
    · rw [hh]
      exact hhanded.trans hh'

/-- Of walks in turn under two budgets, those under the smaller budget are all of the others or
their beginning. -/
theorem occurrencesInTurn_cutOf (d : Decoder world entry container position) (m : Limit)
    (hn : n.toNat ≤ n'.toNat)
    (starts : List (Start (world × List (Call entry container)) entry)) (tally : Tally)
    (w : world × List (Call entry container)) :
    CutOf n (occurrencesInTurn d.recorded ⟨m, .atMost n⟩ starts tally w)
      (occurrencesInTurn d.recorded ⟨m, .atMost n'⟩ starts tally w) := by
  induction starts generalizing tally w with
  | nil => exact .refl ..
  | cons start starts ih => exact (occurrencesFrom_cutOf d m hn start tally w).andThen ih

end Turns

/-! ## The beginning of a walk without a limit -/

theorem count_fresh (n : Int) (console : Console) :
    (count n { console } ([] : List (Call entry container))).Fits n where
  seen_le := Nat.zero_le _
  length_handed := rfl
  told_eq := (if_neg (Nat.not_lt_zero _)).symm

section Recorded

variable {starts : List (Start world entry)} {console : Console} {w : world}

theorem fits_recordedInTurn (n : Int) :
    let r := recordedInTurn d ⟨m, .atMost n⟩ starts { console } w
    (count n r.tally r.world.2).Fits n :=
  fits_occurrencesInTurn (count_fresh n console)

/-- Against a limit that is not reached, another one changes nothing or cuts. -/
theorem recordedInTurn_cases {k : Int} (n : Int)
    (hk : (recordedInTurn d ⟨m, .atMost k⟩ starts { console } w).tally.entriesSeen ≤ k.toNat) :
    let r := recordedInTurn d ⟨m, .atMost n⟩ starts { console } w
    let full := recordedInTurn d ⟨m, .atMost k⟩ starts { console } w
    (r = full ∧ full.tally.entriesSeen ≤ n.toNat) ∨
      (n.toNat < r.tally.entriesSeen ∧ n.toNat < full.tally.entriesSeen ∧
        r.value <+: full.value ∧ handed r.world.2 <+: handed full.world.2) := by
  intro r full
  rcases Nat.le_total n.toNat k.toNat with hle | hle
  · have hcut : CutOf n r full := occurrencesInTurn_cutOf d m hle _ _ _
    obtain ⟨hsame, hseen⟩ | hcut := hcut
    · exact .inl ⟨hsame, by rwa [hsame] at hseen⟩
    · exact .inr hcut
  · have hcut : CutOf k full r := occurrencesInTurn_cutOf d m hle _ _ _
    obtain ⟨hsame, hseen⟩ | ⟨hseen, -⟩ := hcut
    · exact .inl ⟨hsame.symm, Nat.le_trans hseen hle⟩
    · exact absurd hk (Nat.not_le.2 hseen)

/-- A limit that is not reached hands on every entry that is seen. -/
theorem length_handed_recordedInTurn {k : Int}
    (hk : (recordedInTurn d ⟨m, .atMost k⟩ starts { console } w).tally.entriesSeen ≤ k.toNat) :
    (handed (recordedInTurn d ⟨m, .atMost k⟩ starts { console } w).world.2).length =
      (recordedInTurn d ⟨m, .atMost k⟩ starts { console } w).tally.entriesSeen :=
  (fits_recordedInTurn k).length_handed.trans (Nat.min_eq_left hk)

/-- What a limit of `n` entries leaves of walks that hand on every entry they see. -/
theorem atMost_of_fits {r full : Outcome (List Occurrence) (world × List (Call entry container))}
    (hr : (count n r.tally r.world.2).Fits n)
    (hfull : (handed full.world.2).length = full.tally.entriesSeen)
    (h : (r = full ∧ full.tally.entriesSeen ≤ n.toNat) ∨
      (n.toNat < r.tally.entriesSeen ∧ n.toNat < full.tally.entriesSeen ∧
        r.value <+: full.value ∧ handed r.world.2 <+: handed full.world.2)) :
    handed r.world.2 = (handed full.world.2).take n.toNat ∧
      r.tally.entriesSeen = min full.tally.entriesSeen (n.toNat + 1) ∧ r.value <+: full.value ∧
      r.tally.diagnostics.toList.countP (IsEntriesLimit n) =
        if n.toNat < full.tally.entriesSeen then 1 else 0 := by
  obtain ⟨hle, hhanded, htold⟩ := hr
  obtain ⟨rfl, hseen⟩ | ⟨hseen, hseen', hvalue, hbegins⟩ := h
  · refine ⟨?_, ?_, List.prefix_refl _, htold⟩
    · rw [List.take_of_length_le (hfull.trans_le hseen)]
    · rw [Nat.min_eq_left (Nat.le_succ_of_le hseen)]
  · have heq : r.tally.entriesSeen = n.toNat + 1 := Nat.le_antisymm hle hseen
    refine ⟨?_, ?_, hvalue, ?_⟩
    · rw [← hhanded.trans (Nat.min_eq_right (Nat.le_of_lt hseen))]
      exact List.prefix_iff_eq_take.1 hbegins
    · rw [heq, Nat.min_eq_right hseen']
    · rw [if_pos hseen']
      exact htold.trans (if_pos hseen)

/-- Walks after those that told the limit add nothing. -/
theorem recordedInTurn_of_told {before after : List (Start world entry)}
    (h : ∃ x ∈ (recordedInTurn d ⟨m, .atMost n⟩ before { console } w).tally.diagnostics.toList,
      IsEntriesLimit n x) :
    let r := recordedInTurn d ⟨m, .atMost n⟩ (before ++ after) { console } w
    let first := recordedInTurn d ⟨m, .atMost n⟩ before { console } w
    r.value = first.value ∧ count n r.tally r.world.2 = count n first.tally first.world.2 := by
  intro r first
  obtain ⟨x, hmem, hx⟩ := h
  have htold : 0 < (count n first.tally first.world.2).told :=
    List.countP_pos_iff.2 ⟨x, hmem, decide_eq_true hx⟩
  have hseen : n.toNat < first.tally.entriesSeen := by
    by_contra hle
    have hnone : (count n first.tally first.world.2).told = 0 :=
      (fits_recordedInTurn n).told_eq.trans (if_neg hle)
    exact absurd htold (hnone ▸ Nat.lt_irrefl 0)
  have hr : r = first.andThen (occurrencesInTurn d.recorded ⟨m, .atMost n⟩
      (after.map fun start w => start w.1)) := by
    simp only [r, first, recordedInTurn, List.map_append, occurrencesInTurn_append]
  rw [hr]
  exact andThen_of_exceeded _ hseen

end Recorded

/-- The pool of a walk after others, under a limit of entries, is vulnerable under a larger one if
it is so under this one. -/
theorem verdict_load_mono (D : Decoding) (m : Limit) (hn : n.toNat ≤ n'.toNat)
    (before : List Text) (path : Text) (tally : Tally) (session : Session) (signature : Signature) :
    let pool := fun n : Int =>
      let r := occurrencesInTurn D.decoder ⟨m, .atMost n⟩ (before.map Start.ofPath) tally session
      (Pool.load D ⟨m, .atMost n⟩ path r.tally r.world).value
    ((pool n).check signature).verdict = .vulnerable →
      ((pool n').check signature).verdict = .vulnerable := by
  intro pool
  let r := fun n : Int =>
    recordedInTurn D.decoder ⟨m, .atMost n⟩ (before.map Start.ofPath) tally session
  let os := fun n : Int => (occurrencesFrom D.decoder.recorded ⟨m, .atMost n⟩
    (fun w => Start.ofPath path w.1) (r n).tally (r n).world).value
  have hpool : ∀ n, pool n = Pool.ofOccurrences (os n) := by
    intro n
    obtain ⟨-, htally, hworld, -⟩ := occurrencesInTurn_eq_recorded D.decoder ⟨m, .atMost n⟩
      (before.map Start.ofPath) tally session
    simp only [pool, hworld]
    exact value_load D.decoder.shows_recorded _ path htally _
  rw [hpool, hpool]
  refine Pool.verdict_eq_vulnerable_mono ?_
  have hcut : CutOf n (r n) (r n') := occurrencesInTurn_cutOf D.decoder m hn _ tally (session, [])
  obtain ⟨hsame, -⟩ | ⟨hseen, -⟩ := hcut
  · simp only [os, hsame]
    exact (occurrencesFrom_cutOf D.decoder m hn _ _ _).value_begins
  · simp only [os, (occurrencesFrom_of_exceeded (d := D.decoder) _ hseen).1]
    exact List.nil_prefix

/-- The budget of entries cuts a prefix. Let walks be made in turn whose limit of entries, `k`, is
not reached; `N` entries are seen, and each is handed to the decoder. With a limit of `n` entries in
its place exactly the first of them are handed on, as many as the limit allows, and one more is seen
if there is one; the occurrences are the beginning of those without the limit, and of those under
any larger one. That the limit was reached is told once if there is an entry beyond it, and else
never; walks after those that told it add neither an occurrence nor an entry that is seen or handed
on. So a larger limit keeps the verdict that a pool is vulnerable. -/
theorem occurrencesInTurn_atMost (d : Decoder world entry container position) (m : Limit) (k : Int)
    (starts : List (Start world entry)) (console : Console) (w : world)
    (hk : (occurrencesInTurn d ⟨m, .atMost k⟩ starts { console } w).tally.entriesSeen ≤ k.toNat) :
    let run := fun n : Int => occurrencesInTurn d ⟨m, .atMost n⟩ starts { console } w
    let calls := fun n : Int => callsInTurn d ⟨m, .atMost n⟩ starts { console } w
    let N := (run k).tally.entriesSeen
    (handed (calls k)).length = N ∧
    (∀ n : Int,
      handed (calls n) = (handed (calls k)).take n.toNat ∧
      (run n).tally.entriesSeen = min N (n.toNat + 1) ∧
      (run n).value <+: (run k).value ∧ (∀ n', n ≤ n' → (run n).value <+: (run n').value) ∧
      (run n).tally.diagnostics.toList.countP (IsEntriesLimit n) =
        (if n.toNat < N then 1 else 0) ∧
      ∀ before after, starts = before ++ after →
        let first := occurrencesInTurn d ⟨m, .atMost n⟩ before { console } w
        (∃ x ∈ first.tally.diagnostics.toList, IsEntriesLimit n x) →
        (run n).value = first.value ∧ (run n).tally.entriesSeen = first.tally.entriesSeen ∧
        handed (calls n) = handed (callsInTurn d ⟨m, .atMost n⟩ before { console } w)) ∧
    ∀ (D : Decoding) (n n' : Int), n ≤ n' → ∀ (before : List Text) (path : Text) (tally : Tally)
      (session : Session) (signature : Signature),
      let pool := fun n : Int =>
        let r := occurrencesInTurn D.decoder ⟨m, .atMost n⟩ (before.map Start.ofPath) tally session
        (Pool.load D ⟨m, .atMost n⟩ path r.tally r.world).value
      ((pool n).check signature).verdict = .vulnerable →
        ((pool n').check signature).verdict = .vulnerable := by
  intro run calls N
  have hseen := fun starts n => entriesSeen_eq_recorded d ⟨m, .atMost n⟩ starts { console } w
  have hvalue := fun starts n =>
    (occurrencesInTurn_eq_recorded d ⟨m, .atMost n⟩ starts { console } w).1
  have hdiagnostics := fun starts n =>
    diagnostics_eq_recorded d ⟨m, .atMost n⟩ starts { console } w
  rw [hseen] at hk
  have hlength := length_handed_recordedInTurn hk
  refine ⟨hlength.trans (hseen _ _).symm, fun n => ?_,
    fun D n n' hn before path tally session signature =>
      verdict_load_mono D m (Int.toNat_le_toNat hn) before path tally session signature⟩
  simp only [run, N, hseen, hvalue, hdiagnostics]
  obtain ⟨hhanded, hcount, hbegins, htold⟩ :=
    atMost_of_fits (fits_recordedInTurn n) hlength (recordedInTurn_cases n hk)
  refine ⟨hhanded, hcount, hbegins, fun n' hn => ?_, htold, ?_⟩
  · have hcut := occurrencesInTurn_cutOf d m (Int.toNat_le_toNat hn)
      (starts.map fun start w => start w.1) { console } (w, ([] : List (Call entry container)))
    exact hcut.value_begins
  · rintro before after rfl htold
    obtain ⟨hvalue, hcount⟩ := recordedInTurn_of_told htold
    exact ⟨hvalue, congrArg Count.seen hcount, congrArg Count.handed hcount⟩

/-- A jar with damages, and in another walk a class of its own. -/
def jarThenClass : List (Start Unit Tree) :=
  [fun _ => .ok [.entry damagedJar], fun _ => .ok [.entry (.leaf (jarClass ["Next"]))]]

/-- Seven entries are seen; with room for three, the class in the inner jar is the last that is met,
and the second walk does not begin. -/
theorem occurrencesInTurn_atMost_jarThenClass :
    let run := fun n : Int => occurrencesInTurn Tree.decoder ⟨.atMost 2, .atMost n⟩ jarThenClass
      { console := { verbose := false } } ()
    (run 7).tally.entriesSeen ≤ (7 : Int).toNat ∧ (run 3).tally.entriesSeen = 4 ∧
      (handed (callsInTurn Tree.decoder ⟨.atMost 2, .atMost 3⟩ jarThenClass
        { console := { verbose := false } } ())).length = 3 ∧
      (run 3).value <+: (run 7).value ∧
      (run 3).tally.diagnostics.toList.countP (IsEntriesLimit 3) = 1 := by
  intro run
  have hseven : (run 7).tally.entriesSeen = 7 := by decide +kernel
  obtain ⟨hlength, hcut, -⟩ := occurrencesInTurn_atMost Tree.decoder (.atMost 2) 7 jarThenClass
    { verbose := false } () (Nat.le_of_eq hseven)
  obtain ⟨hhanded, hseen, hbegins, -, htold, -⟩ := hcut 3
  refine ⟨Nat.le_of_eq hseven, ?_, ?_, hbegins, ?_⟩
  · exact hseen.trans (by rw [hseven]; rfl)
  · rw [hhanded, List.length_take, hlength, hseven]
    rfl
  · exact htold.trans (by rw [hseven]; rfl)

end JndiScan.Walk
