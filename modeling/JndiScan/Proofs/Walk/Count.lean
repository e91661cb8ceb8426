/-
What the budget of entries is about: how many entries were seen, which of them were handed to the
decoder, and how often it was told that their limit was reached. A step of a walk does one of three
things to this count, and as long as no entry beyond the budget is met, it is the step that would be
made under any other budget.
-/
import JndiScan.Proofs.Effect
import JndiScan.Proofs.Walk.Steps
import JndiScan.Proofs.Walk.Turns

namespace JndiScan.Walk

/-- The diagnostic is what is left where the limit of entries was reached. -/
def IsEntriesLimit (n : Int) (x : Diagnostic) : Prop :=
  x.fatal = true ∧ x.message = (LimitReached.entries n).message x.location

instance (n : Int) : DecidablePred (IsEntriesLimit n) := fun _ =>
  inferInstanceAs (Decidable (_ ∧ _))

/-- The two limits are told in different words. -/
theorem message_depth_ne (m n : Int) (place : Text) :
    (LimitReached.depth m).message place ≠ (LimitReached.entries n).message place := by
  intro h
  have hword : (LimitReached.depth m).setting ++ (" exceeded" : Text) =
      (LimitReached.entries n).setting ++ (" exceeded" : Text) := List.append_cancel_left h
  cases hword

/-! ## What a step adds -/

/-- What the budget is about: the number of entries seen, the entries handed to the decoder, and how
often it was told that their limit was reached. -/
structure Count (entry : Type) where
  seen : Nat
  handed : List entry
  told : Nat

variable {world entry container position : Type}

/-- The count of what was met and of the calls made. -/
def count (n : Int) (t : Tally) (calls : List (Call entry container)) : Count entry where
  seen := t.entriesSeen
  handed := handed calls
  told := t.diagnostics.toList.countP (IsEntriesLimit n)

/-- What a step does to the count under a limit of `n` entries: nothing, or the visit of an entry
within the limit, or that of the first entry beyond it. -/
inductive Count.Step (n : Int) (c : Count entry) : Count entry → Prop
  | idle : Step n c c
  | visit (e : entry) : c.seen < n.toNat → Step n c ⟨c.seen + 1, c.handed ++ [e], c.told⟩
  | cut : c.seen = n.toNat → Step n c ⟨c.seen + 1, c.handed, c.told + 1⟩

section Diagnostics

variable {n : Int} {t : Tally} {calls : List (Call entry container)}

theorem count_addFailure (location : Text) (failure : Failure) :
    count n (t.addFailure location failure) calls = count n t calls := by
  have : ¬ IsEntriesLimit n { location, message := failure.reason } := fun h => nomatch h.1
  simp [count, Tally.addFailure, List.countP_append, this]

theorem count_addLimit_depth (m : Int) (place : Provenance) :
    count n (t.addLimit place (.depth m)) calls = count n t calls := by
  have : ¬ IsEntriesLimit n
      ⟨place.text, (LimitReached.depth m).message place.text, true⟩ :=
    fun h => message_depth_ne m n place.text h.2
  simp [count, Tally.addLimit, List.countP_append, this]

theorem count_addLimit_entries (place : Provenance) :
    count n (t.addLimit place (.entries n)) calls =
      { count n t calls with told := (count n t calls).told + 1 } := by
  have : IsEntriesLimit n
      ⟨place.text, (LimitReached.entries n).message place.text, true⟩ := ⟨rfl, rfl⟩
  simp [count, Tally.addLimit, List.countP_append, this]

end Diagnostics

/-! ## Steps with calls kept -/

variable {d : Decoder world entry container position} {l l' : Limits} {m : Limit} {n n' : Int}
variable {s : State (world × List (Call entry container)) entry position}

/-- A step that leaves the count as it is and finds no class. -/
structure Next.Idle (s : State (world × List (Call entry container)) entry position)
    (x : Next (world × List (Call entry container)) entry position) : Prop where
  count_eq : ∀ n, count n x.state.tally x.state.world.2 = count n s.tally s.world.2
  found?_eq : x.found? = none

@[simp] theorem calls_closeAll (s : State (world × List (Call entry container)) entry position) :
    (s.closeAll d.recorded).world.2 = s.world.2 := by
  have hclose : ∀ (frames : List (position × Nat)) (w : world × List (Call entry container)),
      (frames.foldl (fun w f => d.recorded.close f.1 w) w).2 = w.2 := by
    intro frames
    induction frames with
    | nil => exact fun _ => rfl
    | cons f frames ih => exact fun w => ih _
  exact hclose ..

/-- No call is kept of what is taken from a container. -/
theorem calls_of_pull {p : position} {w : world × List (Call entry container)}
    {r : EStateM.Result Trouble (world × List (Call entry container)) (Option (entry × position))}
    (h : d.recorded.pull p w = r) : (stateOf r).2 = w.2 := by
  have hpull : d.recorded.pull p w = mapWorld (·, w.2 ++ []) (d.pull p w.1) := rfl
  rw [← h, hpull, List.append_nil]
  cases d.pull p w.1 <;> rfl

theorem Comes.calls_eq {e : entry} {depth : Nat}
    {s₁ : State (world × List (Call entry container)) entry position}
    (h : Comes d.recorded s e depth s₁) : s₁.world.2 = s.world.2 := by
  cases h with
  | root => rfl
  | pulled hframes hpull => exact calls_of_pull hpull

theorem Idles.idle {x : Next (world × List (Call entry container)) entry position}
    (h : Idles d.recorded s x) : x.Idle s := by
  cases h with
  | ended | faulty => exact ⟨fun _ => rfl, rfl⟩
  | unlistable => exact ⟨fun _ => count_addFailure .., rfl⟩
  | exhausted _ hpull =>
    exact ⟨fun _ => congrArg (count _ s.tally) (calls_of_pull hpull), rfl⟩
  | failed _ hpull =>
    refine ⟨fun n => (count_addFailure ..).trans ?_, rfl⟩
    exact congrArg (count n s.tally) (calls_of_pull hpull)
  | aborted _ hpull =>
    refine ⟨fun n => ?_, rfl⟩
    simp only [abort, Next.state, calls_closeAll]
    exact congrArg (count n s.tally) (calls_of_pull hpull)

theorem Stops.idle {x : Next (world × List (Call entry container)) entry position}
    (h : Stops d.recorded s x) : x.Idle s := by
  cases h with
  | left | refused => exact ⟨fun n => by simp only [Next.state, calls_closeAll]; rfl, rfl⟩
  | unlistable => exact ⟨fun _ => count_addFailure .., rfl⟩
  | faulty | ended => exact ⟨fun _ => rfl, rfl⟩

/-- With the budget exceeded nothing is visited and nothing is found. -/
theorem step_of_isExhausted (hx : isExhausted l s.tally = true) :
    (step d.recorded l s).Idle s :=
  (stops_of_isExhausted d.recorded s hx).idle

/-! ## Visits -/

section Visit

variable {e : entry} {depth : Nat}

/-- The first entry beyond the budget is counted and told, and nothing else. -/
theorem visit_of_eq {d : Decoder world entry container position} {s : State world entry position}
    (hs : s.tally.entriesSeen = n.toNat) :
    visit d ⟨m, .atMost n⟩ e depth s = .continues
      { s with tally := (s.tally.note .visited).addLimit (d.placeOf e) (.entries n) } :=
  visit_of_exceeded (Nat.le_of_eq hs.symm)

theorem count_expand (l : Limits) (kind : EntryKind) (place : Provenance) (contents : container)
    (depth : Nat) (s : State (world × List (Call entry container)) entry position) :
    let x := expand d.recorded l kind place contents depth s
    count n x.state.tally x.state.world.2 = count n s.tally s.world.2 := by
  have henter : d.recorded.enter contents s.world =
    mapWorld (·, s.world.2 ++ [.entered contents]) (d.enter contents s.world.1) := rfl
  have hcalls : handed (s.world.2 ++ [.entered contents]) = handed s.world.2 := by
    simp [handed, Call.entry?]
  unfold expand
  cases l.maxDepth with
  | unsaid => simp only [abort, Next.state, calls_closeAll]; rfl
  | atMost m =>
    simp only
    split
    · exact count_addLimit_depth m place
    · simp only [State.mapTally, henter]
      cases d.enter contents s.world.1 with
      | ok p w => simp only [mapWorld, Next.state, count, hcalls]; rfl
      | error trouble w =>
        cases trouble with
        | failed failure =>
          simp only [mapWorld, Next.state, count_addFailure]
          simp only [count, hcalls]
          rfl
        | aborted fault =>
          simp only [mapWorld, abort, Next.state, calls_closeAll, count, hcalls]
          rfl

/-- A visit within the budget hands its entry to the decoder. -/
theorem count_visit (hb : s.tally.entriesSeen < l.budget) :
    let x := visit d.recorded l e depth s
    count n x.state.tally x.state.world.2 =
      ⟨s.tally.entriesSeen + 1, handed s.world.2 ++ [e], (count n s.tally s.world.2).told⟩ := by
  have hdecode : d.recorded.decode e s.world =
    mapWorld (·, s.world.2 ++ [.decoded e]) (d.decode e s.world.1) := rfl
  have hcalls : count n (s.tally.note .visited) (s.world.2 ++ [.decoded e]) =
      ⟨s.tally.entriesSeen + 1, handed s.world.2 ++ [e], (count n s.tally s.world.2).told⟩ := by
    simp [count, handed, Call.entry?, Tally.note]
  rw [visit_of_decode hb, hdecode]
  cases d.decode e s.world.1 with
  | ok decoded w =>
    cases decoded with
    | definition o => exact hcalls
    | container kind place contents => exact (count_expand ..).trans hcalls
    | unrecognized name => exact hcalls
  | error trouble w =>
    cases trouble with
    | failed failure => exact (count_addFailure ..).trans hcalls
    | aborted fault =>
      simp only [mapWorld, abort, Next.state, calls_closeAll]
      exact hcalls

end Visit

/-! ## What a step does to the count -/

/-- A step does one of three things to the count. -/
theorem step_count (d : Decoder world entry container position) (m : Limit) (n : Int)
    (s : State (world × List (Call entry container)) entry position) :
    let x := step d.recorded ⟨m, .atMost n⟩ s
    (count n s.tally s.world.2).Step n (count n x.state.tally x.state.world.2) := by
  dsimp only
  refine step_elim d.recorded s ⟨m, .atMost n⟩ (fun _ x hstops => ?_)
    (fun hx e depth s₁ hcomes => ?_) fun _ x hidles => ?_
  · rw [hstops.idle.count_eq]
    exact .idle
  · have hs : s.tally.entriesSeen ≤ n.toNat := Nat.not_lt.1 (of_decide_eq_false hx)
    rw [← hcomes.tally_eq] at hs
    rw [← hcomes.tally_eq, ← hcomes.calls_eq]
    rcases Nat.lt_or_eq_of_le hs with hlt | heq
    · rw [count_visit hlt]
      exact .visit e hlt
    · rw [visit_of_eq heq]
      simp only [Next.state, count_addLimit_entries]
      exact .cut heq
  · rw [hidles.idle.count_eq]
    exact .idle

end JndiScan.Walk
