/-
The order in which a walk comes to its roots. They are handed to the decoder from first to last; what
lies in containers is handed to it in between. Unless the budget is exceeded or a fault ends the walk,
none of them is left out; behind a fault that stands among them there is nothing to come to.
-/
import JndiScan.Proofs.Walk.Count
import JndiScan.Proofs.Walk.Depth

namespace JndiScan.Walk

variable {world entry container position : Type}

/-! ## The entries among roots -/

/-- The entries among roots, up to the first fault. -/
def entriesOf : List (Root entry) → List entry
  | [] => []
  | .entry e :: roots => e :: entriesOf roots
  | .unlistable _ :: roots => entriesOf roots
  | .faulty _ :: _ => []

/-- No fault stands among the roots. -/
def Faultless (roots : List (Root entry)) : Prop := ∀ fault, .faulty fault ∉ roots

section Entries

variable {roots roots' : List (Root entry)} {es es' : List entry}

theorem faultless_append : Faultless (roots ++ roots') ↔ Faultless roots ∧ Faultless roots' := by
  simp only [Faultless, List.mem_append, not_or, forall_and]

theorem faultless_entry (e : entry) : Faultless [.entry e] := by simp [Faultless]

theorem faultless_unlistable (failure : Failure) :
    Faultless ([.unlistable failure] : List (Root entry)) := by simp [Faultless]

theorem entriesOf_append (h : Faultless roots) :
    entriesOf (roots ++ roots') = entriesOf roots ++ entriesOf roots' := by
  induction roots with
  | nil => rfl
  | cons root roots ih =>
    have hroots : Faultless roots := fun fault hmem => h fault (List.mem_cons_of_mem _ hmem)
    cases root with
    | entry e => exact congrArg (e :: ·) (ih hroots)
    | unlistable failure => exact ih hroots
    | faulty fault => exact absurd (List.mem_cons_self ..) (h fault)

theorem entriesOf_append_of_faulty (h : ¬ Faultless roots) :
    entriesOf (roots ++ roots') = entriesOf roots := by
  induction roots with
  | nil => exact absurd (fun _ => List.not_mem_nil) h
  | cons root roots ih =>
    cases root with
    | entry e =>
      refine congrArg (e :: ·) (ih fun hroots => h fun fault hmem => ?_)
      exact hroots fault (by simpa using hmem)
    | unlistable failure =>
      refine ih fun hroots => h fun fault hmem => ?_
      exact hroots fault (by simpa using hmem)
    | faulty fault => rfl

theorem entriesOf_map (es : List entry) : entriesOf (es.map .entry) = es := by
  induction es with
  | nil => rfl
  | cons e es ih => exact congrArg (e :: ·) ih

/-- The roots stand for these entries: without a fault for all, and else for the first of them. -/
structure StandFor (roots : List (Root entry)) (es : List entry) : Prop where
  mem_of_entry : ∀ e, .entry e ∈ roots → e ∈ es
  entriesOf_prefix : entriesOf roots <+: es
  entriesOf_eq : Faultless roots → entriesOf roots = es

namespace StandFor

theorem entries (es : List entry) : StandFor (es.map .entry) es :=
  ⟨fun e he => by simpa using he, (entriesOf_map es).symm ▸ List.prefix_rfl,
    fun _ => entriesOf_map es⟩

theorem unlistable (failure : Failure) :
    StandFor [Root.unlistable failure] ([] : List entry) where
  mem_of_entry _ he := nomatch List.mem_singleton.1 he
  entriesOf_prefix := List.prefix_rfl
  entriesOf_eq _ := rfl

theorem faulty (fault : Fault) (es : List entry) : StandFor [Root.faulty fault] es where
  mem_of_entry _ he := nomatch List.mem_singleton.1 he
  entriesOf_prefix := List.nil_prefix
  entriesOf_eq h := absurd (List.mem_singleton_self _) (h fault)

theorem append (h : StandFor roots es) (h' : StandFor roots' es') :
    StandFor (roots ++ roots') (es ++ es') := by
  have hmem : ∀ e, .entry e ∈ roots ++ roots' → e ∈ es ++ es' := fun e he =>
    List.mem_append.2 ((List.mem_append.1 he).imp (h.mem_of_entry e) (h'.mem_of_entry e))
  by_cases hroots : Faultless roots
  · refine ⟨hmem, ?_, fun hall => ?_⟩
    · rw [entriesOf_append hroots, h.entriesOf_eq hroots]
      exact (List.prefix_append_right_inj es).2 h'.entriesOf_prefix
    · rw [entriesOf_append hroots, h.entriesOf_eq hroots,
        h'.entriesOf_eq (faultless_append.1 hall).2]
  · refine ⟨hmem, ?_, fun hall => absurd (faultless_append.1 hall).1 hroots⟩
    rw [entriesOf_append_of_faulty hroots]
    exact h.entriesOf_prefix.trans (List.prefix_append ..)

theorem flatMap {α : Type} {f : α → List (Root entry)} {g : α → List entry} {xs : List α}
    (h : ∀ x ∈ xs, StandFor (f x) (g x)) : StandFor (xs.flatMap f) (xs.flatMap g) := by
  induction xs with
  | nil => exact entries []
  | cons x xs ih =>
    obtain ⟨hx, hxs⟩ := List.forall_mem_cons.1 h
    exact hx.append (ih hxs)

end StandFor

end Entries

/-! ## Roots in turn -/

/-- Of the entries handed to a decoder, those that lie in no container. -/
def rootsHanded (d : Decoder world entry container position) (calls : List (Call entry container)) :
    List entry :=
  (handed calls).filter fun e => (d.placeOf e).depth = 0

/-- The state of a walk over roots: those that were handed on came first, and as long as the budget is
not exceeded the others are left. -/
structure InTurn (d : Decoder world entry container position) (l : Limits)
    (first : List (Root entry))
    (s : State (world × List (Call entry container)) entry position) : Prop where
  handed_prefix : rootsHanded d s.world.2 <+: entriesOf first
  left : s.tally.entriesSeen ≤ l.budget → ∃ done, first = done ++ s.roots ∧ Faultless done ∧
    rootsHanded d s.world.2 = entriesOf done
  outer : ∀ e, .entry e ∈ s.roots → (d.placeOf e).depth = 0

section Steps

variable {d : Decoder world entry container position} {l : Limits} {first : List (Root entry)}
variable {s s' : State (world × List (Call entry container)) entry position}

/-- What is taken from a container lies in it. -/
theorem Nesting.depth_of_pull_recorded (N : Nesting d) {p p' : position} {e : entry}
    {w w' : world × List (Call entry container)}
    (h : d.recorded.pull p w = .ok (some (e, p')) w') : (d.placeOf e).depth ≠ 0 := by
  have hpull : d.recorded.pull p w = mapWorld (·, w.2 ++ []) (d.pull p w.1) := rfl
  rw [hpull] at h
  cases hx : d.pull p w.1 with
  | ok next w₁ =>
    rw [hx] at h
    cases h
    obtain ⟨⟨name, converted, hplace⟩, -⟩ := N.pull hx
    rw [hplace, Provenance.depth_child]
    exact Nat.succ_ne_zero _
  | error trouble w₁ =>
    rw [hx] at h
    cases h

theorem roots_state_of_ofVisit {roots : List (Root entry)} {x : Next world entry position}
    (h : x.OfVisit roots) : x.state.roots = roots := by
  cases x with
  | continues s | found o s => exact h
  | ended s => exact h.elim
  | aborted fault s => exact h.2

/-- An entry beyond the budget is not handed on. -/
theorem visit_recorded_of_exceeded (e : entry) (depth : Nat)
    (hb : l.budget ≤ s.tally.entriesSeen) :
    (visit d.recorded l e depth s).state.world.2 = s.world.2 ∧
      (visit d.recorded l e depth s).state.tally.entriesSeen = s.tally.entriesSeen + 1 := by
  rw [visit_of_exceeded hb]
  cases l.maxEntries with
  | unsaid => exact ⟨calls_closeAll _, rfl⟩
  | atMost n => exact ⟨rfl, rfl⟩

/-- What the roots in front stand for comes first. -/
theorem entriesOf_prefix {done roots : List (Root entry)} (hfirst : first = done ++ roots)
    (hdone : Faultless done) : entriesOf done <+: entriesOf first := by
  rw [hfirst, entriesOf_append hdone]
  exact List.prefix_append ..

/-- A visit hands its entry on, and beyond the budget it does not. -/
theorem inTurn_visit {e : entry} {depth : Nat} {done : List (Root entry)}
    (hfirst : first = done ++ s.roots) (hdone : Faultless done)
    (h : rootsHanded d (s.world.2 ++ [.decoded e]) = entriesOf done)
    (hbegins : rootsHanded d s.world.2 <+: entriesOf first) (hb : s.tally.entriesSeen ≤ l.budget)
    (hroots : ∀ e, .entry e ∈ s.roots → (d.placeOf e).depth = 0) :
    InTurn d l first (visit d.recorded l e depth s).state := by
  have hleft := roots_state_of_ofVisit (ofVisit_visit d.recorded l e depth s)
  rcases Nat.lt_or_eq_of_le hb with hlt | heq
  · have hcount : count 0 (visit d.recorded l e depth s).state.tally
        (visit d.recorded l e depth s).state.world.2 = ⟨_, _, _⟩ := count_visit hlt
    have hhanded : handed (visit d.recorded l e depth s).state.world.2 =
        handed (s.world.2 ++ [.decoded e]) := by
      have hone : handed (s.world.2 ++ [.decoded e]) = handed s.world.2 ++ [e] := by
        rw [handed, List.filterMap_append]
        rfl
      rw [hone]
      exact congrArg Count.handed hcount
    have hsame : rootsHanded d (visit d.recorded l e depth s).state.world.2 = entriesOf done := by
      rw [rootsHanded, hhanded]
      exact h
    exact ⟨hsame ▸ entriesOf_prefix hfirst hdone,
      fun _ => ⟨done, hleft ▸ hfirst, hdone, hsame⟩, hleft ▸ hroots⟩
  · obtain ⟨hcalls, hseen⟩ :=
      visit_recorded_of_exceeded (d := d) e depth (Nat.le_of_eq heq.symm)
    refine ⟨hcalls ▸ hbegins, fun hle => ?_, hleft ▸ hroots⟩
    omega

theorem inTurn_of_idle {x : Next (world × List (Call entry container)) entry position}
    (h : InTurn d l first s) (hidle : x.Idle s)
    (hroots : ∀ e, .entry e ∈ x.state.roots → .entry e ∈ s.roots)
    (hleft : s.tally.entriesSeen ≤ l.budget → ∃ passed, s.roots = passed ++ x.state.roots ∧
      Faultless passed ∧ entriesOf passed = []) : InTurn d l first x.state := by
  have hhanded : handed x.state.world.2 = handed s.world.2 :=
    congrArg Count.handed (hidle.count_eq 0)
  have hseen : x.state.tally.entriesSeen = s.tally.entriesSeen :=
    congrArg Count.seen (hidle.count_eq 0)
  have hsame : rootsHanded d x.state.world.2 = rootsHanded d s.world.2 := by
    rw [rootsHanded, hhanded, rootsHanded]
  refine ⟨hsame ▸ h.handed_prefix, fun hle => ?_, fun e he => h.outer e (hroots e he)⟩
  rw [hseen] at hle
  obtain ⟨done, hfirst, hdone, hhanded⟩ := h.left hle
  obtain ⟨passed, hpassed, hfaultless, hnone⟩ := hleft hle
  refine ⟨done ++ passed, ?_, faultless_append.2 ⟨hdone, hfaultless⟩, ?_⟩
  · rw [hfirst, hpassed, List.append_assoc]
  · rw [hsame, hhanded, entriesOf_append hdone, hnone, List.append_nil]

/-- An entry that comes is handed on where its visit begins. -/
theorem Comes.inTurn (N : Nesting d) {e : entry} {depth : Nat}
    {s₁ : State (world × List (Call entry container)) entry position}
    (hcomes : Comes d.recorded s e depth s₁) (h : InTurn d l first s)
    (hb : s.tally.entriesSeen ≤ l.budget) :
    InTurn d l first (visit d.recorded l e depth s₁).state := by
  obtain ⟨done, hfirst, hdone, hhanded⟩ := h.left hb
  have hcalls := hcomes.calls_eq
  have hnew : rootsHanded d (s₁.world.2 ++ [.decoded e]) =
      rootsHanded d s.world.2 ++ [e].filter fun e => (d.placeOf e).depth = 0 := by
    rw [rootsHanded, rootsHanded, handed, List.filterMap_append, List.filter_append, hcalls]
    rfl
  cases hcomes with
  | @root _ roots _ hroots =>
    have hdepth : (d.placeOf e).depth = 0 := h.outer e (hroots ▸ List.mem_cons_self ..)
    have hfirst' : first = (done ++ [.entry e]) ++ roots := by
      rw [hfirst, hroots, List.append_cons]
    refine inTurn_visit hfirst' ?_ ?_ h.handed_prefix hb fun e he =>
      h.outer e (hroots ▸ List.mem_cons_of_mem _ he)
    · exact faultless_append.2 ⟨hdone, faultless_entry e⟩
    · rw [hnew, hhanded, entriesOf_append hdone]
      simp [hdepth, entriesOf]
  | pulled _ hpull =>
    refine inTurn_visit hfirst hdone ?_ (hcalls ▸ h.handed_prefix) hb h.outer
    rw [hnew, hhanded]
    simp [N.depth_of_pull_recorded hpull]

theorem Idles.inTurn {x : Next (world × List (Call entry container)) entry position}
    (hidles : Idles d.recorded s x) (h : InTurn d l first s) : InTurn d l first x.state := by
  obtain ⟨passed, hpassed, hfaultless, hnone⟩ :
      ∃ passed, s.roots = passed ++ x.state.roots ∧ Faultless passed ∧ entriesOf passed = [] := by
    cases hidles with
    | @unlistable failure roots _ hroots =>
      exact ⟨[.unlistable failure], hroots, faultless_unlistable failure, rfl⟩
    | _ => exact ⟨[], rfl, fun _ => List.not_mem_nil, rfl⟩
  exact inTurn_of_idle h hidles.idle (fun e he => hpassed ▸ List.mem_append_right _ he)
    fun _ => ⟨passed, hpassed, hfaultless, hnone⟩

/-- Every step goes on with the roots in their order. -/
theorem inTurn_step (N : Nesting d) (h : InTurn d l first s) :
    InTurn d l first (step d.recorded l s).state := by
  refine step_elim d.recorded s l (fun hx x hstops => ?_) (fun hx e depth s₁ hcomes => ?_)
    fun _ x hidles => hidles.inTurn h
  · have hexceeded : ¬ s.tally.entriesSeen ≤ l.budget := Nat.not_le.2 (of_decide_eq_true hx)
    refine inTurn_of_idle h hstops.idle ?_ fun hle => absurd hle hexceeded
    cases hstops with
    | left | refused | faulty => exact fun e he => he
    | unlistable _ hroots => exact fun e he => hroots ▸ List.mem_cons_of_mem _ he
    | ended => exact fun e he => absurd he List.not_mem_nil
  · exact hcomes.inTurn N h (Nat.not_lt.1 (of_decide_eq_false hx))

theorem roots_of_ended {world : Type} {d : Decoder world entry container position}
    {s s' : State world entry position} (h : step d l s = .ended s') : s'.roots = [] := by
  revert h
  refine step_elim d s l (fun _ x hstops h => ?_) (fun _ e depth s₁ _ h => ?_) fun _ x hidles h => ?_
  · subst h
    cases hstops
    rfl
  · have hof := ofVisit_visit d l e depth s₁
    rw [h] at hof
    exact hof.elim
  · subst h
    cases hidles with
    | ended _ hroots => exact hroots

end Steps

/-! ## Whole walks -/

theorem rootsHanded_occurrences {d : Decoder world entry container position} (N : Nesting d)
    {l : Limits} {first : List (Root entry)} (wanted : Option Nat)
    {s : State (world × List (Call entry container)) entry position} (h : InTurn d l first s) :
    let r := occurrences d.recorded l wanted s
    rootsHanded d r.world.2 <+: entriesOf first ∧
      (wanted = none → r.fault = none → r.tally.entriesSeen ≤ l.budget →
        Faultless first ∧ rootsHanded d r.world.2 = entriesOf first) := by
  induction wanted, s using wanted_induction d.recorded l with
  | zero s =>
    rw [occurrences_zero]
    refine ⟨?_, fun hnone => nomatch hnone⟩
    show rootsHanded d (s.closeAll d.recorded).world.2 <+: entriesOf first
    rw [calls_closeAll]
    exact h.handed_prefix
  | continues wanted s s₁ hw hstep ih =>
    have hnext := inTurn_step N h
    rw [hstep] at hnext
    rw [occurrences_of_wanted hw, hstep]
    exact ih hnext
  | found wanted s o s₁ hw hstep ih =>
    have hnext := inTurn_step N h
    rw [hstep] at hnext
    rw [occurrences_of_wanted hw, hstep]
    obtain ⟨hbegins, hall⟩ := ih hnext
    exact ⟨hbegins, fun hnone => hall (by rw [hnone]; rfl)⟩
  | ended wanted s s₁ hw hstep =>
    have hnext := inTurn_step N h
    have hroots := roots_of_ended hstep
    rw [hstep] at hnext
    rw [occurrences_of_wanted hw, hstep]
    refine ⟨hnext.handed_prefix, fun _ _ hb => ?_⟩
    obtain ⟨done, hfirst, hdone, hhanded⟩ := hnext.left hb
    rw [show (Next.ended s₁).state.roots = [] from hroots, List.append_nil] at hfirst
    rw [hfirst]
    exact ⟨hdone, hhanded⟩
  | aborted wanted s fault s₁ hw hstep =>
    have hnext := inTurn_step N h
    rw [hstep] at hnext
    rw [occurrences_of_wanted hw, hstep]
    exact ⟨hnext.handed_prefix, fun _ hnone => nomatch hnone⟩

/-- The roots that a walk hands to the decoder, as far as its occurrences are wanted, in order. -/
def rootsVisited (d : Decoder world entry container position) (l : Limits) (wanted : Option Nat)
    (s : State world entry position) : List entry :=
  rootsHanded d (occurrences d.recorded l wanted s.recorded).world.2

/-- The roots are visited in their order. Where the walk is not left before its end, no fault ends it
and the budget is not exceeded, all of them are. -/
theorem rootsVisited_inTurn {d : Decoder world entry container position} (N : Nesting d)
    (l : Limits) (wanted : Option Nat) {s : State world entry position} {es : List entry}
    (hroots : StandFor s.roots es) (houter : ∀ e ∈ es, (d.placeOf e).depth = 0) :
    rootsVisited d l wanted s <+: es ∧
      (wanted = none → (occurrences d l wanted s).fault = none →
        (occurrences d l wanted s).tally.entriesSeen ≤ l.budget →
        rootsVisited d l wanted s = es) := by
  have hstart : InTurn d l s.roots s.recorded :=
    ⟨List.nil_prefix, fun _ => ⟨[], rfl, fun _ => List.not_mem_nil, rfl⟩,
      fun e he => houter e (hroots.mem_of_entry e he)⟩
  obtain ⟨hbegins, hall⟩ := rootsHanded_occurrences N wanted hstart
  obtain ⟨-, htally, -, hfault⟩ := occurrences_of_view (l := l) d.shows_recorded wanted
    (s.recorded : State (world × List (Call entry container)) entry position) s rfl
  have hseen : (occurrences d l wanted s).tally.entriesSeen =
      (occurrences d.recorded l wanted s.recorded).tally.entriesSeen :=
    show Tally.entriesSeen (Tally.quiet _) = Tally.entriesSeen (Tally.quiet _) from
      congrArg Tally.entriesSeen htally
  refine ⟨hbegins.trans hroots.entriesOf_prefix, fun hnone hnofault hb => ?_⟩
  obtain ⟨hfaultless, heq⟩ := hall hnone (hfault ▸ hnofault) (hseen ▸ hb)
  exact heq.trans (hroots.entriesOf_eq hfaultless)

end JndiScan.Walk
