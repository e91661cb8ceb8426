/-
The limit of depth. A walk with the limit goes as the recursive traversal of the trees does, told by
`Tree.story`, with what the limit leaves of it: `passes_of_is` says so for one entry below any stack,
and `passes_of_gives` for what is left of the container on top of the stack. The trees must be those
of all worlds of an invariant, since what is left out is not there to change the world.
-/
import JndiScan.Proofs.Walk.Story

namespace JndiScan.Walk

variable {world entry container position : Type}

/-! ## The stack and the limited recursion -/

section Simulation

variable {d : Decoder world entry container position} {l : Limits}

/-- At the limit of depth a container is refused. -/
theorem expand_of_limit {m : Int} (hl : l.maxDepth = .atMost m) {depth : Nat}
    (hm : m.toNat ≤ depth) (kind : EntryKind) (place : Provenance) (contents : container)
    (s : State world entry position) :
    expand d l kind place contents depth s =
      .continues { s with tally := s.tally.addLimit place (.depth m) } := by
  have hlt : (depth : Int) + 1 > m := by omega
  unfold expand
  simp only [hl, hlt, if_true]
  rfl

variable {I J : world → Prop} {e : entry} {p : position} {contents : container}
variable {w : world × List (Call entry container)}

theorem Yields.decoded {x : Decoded container} (h : Yields I J (d.decode e) x) (hw : I w.1) :
    ∃ w', d.decode e w.1 = .ok x w' ∧
      d.recorded.decode e w = .ok x (w', w.2 ++ [.decoded e]) ∧ J w' := by
  obtain ⟨w', hwork, hw'⟩ := h w.1 hw
  refine ⟨w', hwork, ?_, hw'⟩
  show mapWorld _ (d.decode e w.1) = _
  rw [hwork]
  rfl

theorem Fails.decoded {failure : Failure} (h : Fails I J (d.decode e) failure) (hw : I w.1) :
    ∃ w', d.recorded.decode e w = .error (.failed failure) (w', w.2 ++ [.decoded e]) ∧ J w' := by
  obtain ⟨w', hwork, hw'⟩ := h w.1 hw
  refine ⟨w', ?_, hw'⟩
  show mapWorld _ (d.decode e w.1) = _
  rw [hwork]
  rfl

theorem Yields.entered (h : Yields I J (d.enter contents) p) (hw : I w.1) :
    ∃ w', d.enter contents w.1 = .ok p w' ∧
      d.recorded.enter contents w = .ok p (w', w.2 ++ [.entered contents]) ∧ J w' := by
  obtain ⟨w', hwork, hw'⟩ := h w.1 hw
  refine ⟨w', hwork, ?_, hw'⟩
  show mapWorld _ (d.enter contents w.1) = _
  rw [hwork]
  rfl

theorem Fails.entered {failure : Failure} (h : Fails I J (d.enter contents) failure)
    (hw : I w.1) :
    ∃ w', d.recorded.enter contents w = .error (.failed failure) (w', w.2 ++ [.entered contents]) ∧
      J w' := by
  obtain ⟨w', hwork, hw'⟩ := h w.1 hw
  refine ⟨w', ?_, hw'⟩
  show mapWorld _ (d.enter contents w.1) = _
  rw [hwork]
  rfl

theorem Yields.pulled {x : Option (entry × position)} (h : Yields I J (d.pull p) x) (hw : I w.1) :
    ∃ w', d.recorded.pull p w = .ok x (w', w.2) ∧ J w' := by
  obtain ⟨w', hwork, hw'⟩ := h w.1 hw
  refine ⟨w', ?_, hw'⟩
  show mapWorld _ (d.pull p w.1) = _
  rw [hwork, List.append_nil]
  rfl

theorem Fails.pulled {failure : Failure} (h : Fails I J (d.pull p) failure) (hw : I w.1) :
    ∃ w', d.recorded.pull p w = .error (.failed failure) (w', w.2) ∧ J w' := by
  obtain ⟨w', hwork, hw'⟩ := h w.1 hw
  refine ⟨w', ?_, hw'⟩
  show mapWorld _ (d.pull p w.1) = _
  rw [hwork, List.append_nil]
  rfl

variable {onFound : α → Occurrence → Console → α × Console}

/-- A part of a walk that goes from one state to another, in which the limited traversal meets a
story: the world keeps to an invariant, and the calls are those of the story. -/
def Passes (N : Nesting d) (l : Limits) (m : Int) (onFound : α → Occurrence → Console → α × Console)
    (I : world → Prop) (story : List Limited)
    (s₀ s : State (world × List (Call entry container)) entry position) : Prop :=
  ∀ value, ∃ w' calls, I w' ∧
    calls.map (Call.map d.placeOf N.ofContainer) = story.filterMap Limited.call? ∧
    s₀.fold d.recorded l onFound none value =
      { s with
        world := (w', s.world.2 ++ calls)
        tally := (replayWithin m onFound (value, s.tally) story).2 }.fold d.recorded l onFound none
          (replayWithin m onFound (value, s.tally) story).1

section Parts

variable {N : Nesting d} {m : Int} {depth : Nat}
variable {s₀ s : State (world × List (Call entry container)) entry position}

/-- A container at the limit is refused, whatever is in it. -/
theorem passes_of_refused {kind : EntryKind} {place : Provenance}
    (hd : Yields I I (d.decode e) (.container kind place contents)) (hl : l.maxDepth = .atMost m)
    (hstep : step d.recorded l s₀ = visit d.recorded l e depth s) (hw : I s.world.1)
    (hm : m.toNat ≤ depth) (hb : s.tally.entriesSeen < l.budget) :
    Passes N l m onFound I [.met (.visited place), .refused place] s₀ s := by
  intro value
  obtain ⟨w', hdecode, hrecorded, hw'⟩ := hd.decoded hw
  obtain ⟨rfl, -⟩ := N.container hdecode
  rw [visit_of_decode hb, hrecorded] at hstep
  simp only [expand_of_limit hl hm] at hstep
  exact ⟨w', [.decoded e], hw', rfl, by rw [fold_of_continues (by simp) hstep]; rfl⟩

theorem passes_of_leaf {o : Occurrence} (hd : Yields I I (d.decode e) (.definition o))
    (hstep : step d.recorded l s₀ = visit d.recorded l e depth s) (hw : I s.world.1)
    (hb : s.tally.entriesSeen < l.budget) :
    Passes N l m onFound I [.met (.visited o.place), .met (.found o)] s₀ s := by
  intro value
  obtain ⟨w', hdecode, hrecorded, hw'⟩ := hd.decoded hw
  rw [visit_of_decode hb, hrecorded] at hstep
  refine ⟨w', [.decoded e], hw', ?_, ?_⟩
  · rw [N.definition hdecode]
    rfl
  · rw [fold_of_found (by simp) hstep]
    rfl

theorem passes_of_other {name : Text} (hd : Yields I I (d.decode e) (.unrecognized name))
    (hstep : step d.recorded l s₀ = visit d.recorded l e depth s) (hw : I s.world.1)
    (hb : s.tally.entriesSeen < l.budget) :
    Passes N l m onFound I [.met (.visited (d.placeOf e)), .met (.skipped (d.placeOf e))]
      s₀ s := by
  intro value
  obtain ⟨w', -, hrecorded, hw'⟩ := hd.decoded hw
  rw [visit_of_decode hb, hrecorded] at hstep
  exact ⟨w', [.decoded e], hw', rfl, by rw [fold_of_continues (by simp) hstep]; rfl⟩

theorem passes_of_broken {failure : Failure} (hd : Fails I I (d.decode e) failure)
    (hstep : step d.recorded l s₀ = visit d.recorded l e depth s) (hw : I s.world.1)
    (hb : s.tally.entriesSeen < l.budget) :
    Passes N l m onFound I
      [.met (.visited (d.placeOf e)), .met (.failed depth (d.placeOf e).text failure)] s₀ s := by
  intro value
  obtain ⟨w', hrecorded, hw'⟩ := hd.decoded hw
  rw [visit_of_decode hb, hrecorded] at hstep
  exact ⟨w', [.decoded e], hw', rfl, by rw [fold_of_continues (by simp) hstep]; rfl⟩

/-- Below the limit a container is entered, and one that cannot be opened ends there. -/
theorem passes_of_sealed {kind : EntryKind} {place : Provenance} {failure : Failure}
    (hd : Yields I I (d.decode e) (.container kind place contents))
    (he : Fails I I (d.enter contents) failure) (hl : l.maxDepth = .atMost m)
    (hstep : step d.recorded l s₀ = visit d.recorded l e depth s) (hw : I s.world.1)
    (hm : depth < m.toNat) (hb : s.tally.entriesSeen < l.budget) :
    Passes N l m onFound I [.met (.visited place), .met (.opened kind place),
      .met (.failed (depth + 1) place.text failure)] s₀ s := by
  intro value
  obtain ⟨w₁, hdecode, hrecorded, hw₁⟩ := hd.decoded hw
  obtain ⟨rfl, hcontents⟩ := N.container hdecode
  obtain ⟨w', hentered, hw'⟩ := he.entered (w := (w₁, s.world.2 ++ [.decoded e])) hw₁
  rw [visit_of_decode hb, hrecorded] at hstep
  simp only [expand_of_enter hl hm, hentered] at hstep
  refine ⟨w', [.decoded e, .entered contents], hw', ?_, ?_⟩
  · show [Call.decoded (d.placeOf e), Call.entered (N.ofContainer contents)] = _
    rw [hcontents]
    rfl
  · rw [fold_of_continues (by simp) hstep, List.append_assoc]
    rfl

/-- Below the limit a container is entered, and what is in it is gone through. -/
theorem passes_of_node {kind : EntryKind} {place : Provenance} {story : List Limited}
    (hd : Yields I I (d.decode e) (.container kind place contents))
    (he : Yields I J (d.enter contents) p) (hl : l.maxDepth = .atMost m)
    (hstep : step d.recorded l s₀ = visit d.recorded l e depth s) (hw : I s.world.1)
    (hm : depth < m.toNat) (hb : s.tally.entriesSeen < l.budget)
    (hinside : ∀ w, J w.1 → Passes N l m onFound I story
      { s with
        world := w
        tally := (s.tally.note .visited).note (.opened kind place)
        frames := (p, depth + 1) :: s.frames }
      { s with world := w, tally := (s.tally.note .visited).note (.opened kind place) }) :
    Passes N l m onFound I ([.met (.visited place), .met (.opened kind place)] ++ story) s₀ s := by
  intro value
  obtain ⟨w₁, hdecode, hrecorded, hw₁⟩ := hd.decoded hw
  obtain ⟨rfl, hcontents⟩ := N.container hdecode
  obtain ⟨w₂, -, hentered, hw₂⟩ := he.entered (w := (w₁, s.world.2 ++ [.decoded e])) hw₁
  rw [visit_of_decode hb, hrecorded] at hstep
  simp only [expand_of_enter hl hm, hentered] at hstep
  obtain ⟨w', calls, hw', hcalls, hfold⟩ :=
    hinside (w₂, s.world.2 ++ [.decoded e] ++ [.entered contents]) hw₂ value
  refine ⟨w', .decoded e :: .entered contents :: calls, hw', ?_, ?_⟩
  · rw [List.map_cons, List.map_cons, hcalls, List.filterMap_append, Call.map, Call.map, hcontents]
    rfl
  · rw [fold_of_continues (by simp) hstep, replayWithin_append]
    refine hfold.trans ?_
    simp only [List.append_assoc]
    rfl

end Parts

mutual

/-- A step that visits an entry begins a part of the walk that ends with the containers below it as
they were, after what the limited traversal of the entry meets. -/
theorem passes_of_is (N : Nesting d) {I : world → Prop} {e : entry} {t : Tree} (h : Is d I e t)
    {m : Int} (hl : l.maxDepth = .atMost m)
    {s₀ s : State (world × List (Call entry container)) entry position} {depth : Nat}
    (hstep : step d.recorded l s₀ = visit d.recorded l e depth s) (hw : I s.world.1)
    (ht : t.LiesAt depth) (hm : depth ≤ m.toNat)
    (hb : s.tally.entriesSeen + (within m.toNat t.story).countP Limited.isVisit ≤ l.budget) :
    Passes N l m onFound I (within m.toNat t.story) s₀ s := by
  cases h with
  | leaf hd =>
    rw [within_story_leaf ht hm] at hb ⊢
    exact passes_of_leaf hd hstep hw hb
  | other hd =>
    rw [within_story_other ht hm] at hb ⊢
    exact passes_of_other hd hstep hw hb
  | broken hd =>
    rw [within_story_broken ht hm] at hb ⊢
    exact passes_of_broken hd hstep hw hb
  | sealed hd he =>
    rcases Nat.lt_or_eq_of_le hm with hlt | rfl
    · rw [within_story_sealed ht hlt] at hb ⊢
      exact passes_of_sealed hd he hl hstep hw hlt hb
    · rw [within_story_sealed_of_eq ht] at hb ⊢
      exact passes_of_refused hd hl hstep hw (Nat.le_refl _) hb
  | @node _ _ kind place _ _ _ hd he hp =>
    rcases Nat.lt_or_eq_of_le hm with hlt | rfl
    · rw [within_story_node ht hlt, List.countP_append] at hb
      rw [within_story_node ht hlt]
      have hvisit : List.countP Limited.isVisit
          [.met (.visited place), .met (.opened kind place)] = 1 := rfl
      refine passes_of_node hd he hl hstep hw hlt (by omega) fun w hw => ?_
      exact passes_of_gives N hp hl rfl hw ht.2 hlt (by simp only [Tally.note, Tally.debug]; omega)
    · rw [within_story_node_of_eq ht] at hb ⊢
      exact passes_of_refused hd hl hstep hw (Nat.le_refl _) hb

/-- What is left of the top container is gone through before anything below it is touched. -/
theorem passes_of_gives (N : Nesting d) {I J : world → Prop} {p : position} {f : Forest}
    (h : Gives d I J p f) {m : Int} (hl : l.maxDepth = .atMost m)
    {s : State (world × List (Call entry container)) entry position} {depth : Nat}
    {frames : List (position × Nat)} (hframes : s.frames = (p, depth) :: frames)
    (hw : I s.world.1) (hf : f.LiesAt depth) (hm : depth ≤ m.toNat)
    (hb : s.tally.entriesSeen + (within m.toNat (f.story depth)).countP Limited.isVisit ≤
      l.budget) :
    Passes N l m onFound J (within m.toNat (f.story depth)) s { s with frames } := by
  intro value
  have hstep := step_of_pull (d := d.recorded) hframes (Nat.le_of_add_right_le hb)
  cases h with
  | done hp =>
    obtain ⟨w', hpulled, hw'⟩ := hp.pulled hw
    rw [hpulled] at hstep
    exact ⟨w', [], hw', rfl, by rw [fold_of_continues (by simp) hstep, List.append_nil]; rfl⟩
  | @cut _ _ _ failure hp =>
    have hstory : within m.toNat (Forest.story depth (.cut failure)) =
        [.met (.failed depth failure.location failure)] := by
      simp [Forest.story, within, Happening.within, hm]
    rw [hstory]
    obtain ⟨w', hpulled, hw'⟩ := hp.pulled hw
    rw [hpulled] at hstep
    exact ⟨w', [], hw', rfl, by rw [fold_of_continues (by simp) hstep, List.append_nil]; rfl⟩
  | @more _ _ K _ p' e t rest hp ht hrest =>
    rw [Forest.story, within_append, List.countP_append] at hb
    rw [Forest.story, within_append]
    obtain ⟨w₁, hpulled, hw₁⟩ := hp.pulled hw
    rw [hpulled] at hstep
    obtain ⟨w₂, calls, hw₂, hcalls, hfold⟩ := passes_of_is N ht hl hstep hw₁
      hf.1 hm (by simp only; omega) value
    obtain ⟨w₃, more, hw₃, hmore, hfold'⟩ := passes_of_gives N hrest hl
      (s := { s with
        world := (w₂, s.world.2 ++ calls)
        tally := (replayWithin m onFound (value, s.tally) (within m.toNat t.story)).2
        frames := (p', depth) :: frames }) rfl hw₂ hf.2 hm
      (by simp only [entriesSeen_replayWithin]; omega)
      (replayWithin m onFound (value, s.tally) (within m.toNat t.story)).1
    refine ⟨w₃, calls ++ more, hw₃, ?_, ?_⟩
    · rw [List.map_append, hcalls, hmore, List.filterMap_append]
    · rw [hfold, hfold', replayWithin_append, List.append_assoc]

end

/-- The roots of a walk are gone through one after the other. -/
theorem fold_of_isAll (N : Nesting d) {I : world → Prop} {es : List entry} {ts : List Tree}
    (h : List.Forall₂ (Is d I) es ts) {m : Int} (hl : l.maxDepth = .atMost m)
    (hts : ∀ t ∈ ts, t.LiesAt 0)
    {s : State (world × List (Call entry container)) entry position}
    (hframes : s.frames = []) (hroots : s.roots = es.map .entry) (hw : I s.world.1)
    (hb : s.tally.entriesSeen +
      (within m.toNat (ts.flatMap Tree.story)).countP Limited.isVisit ≤ l.budget) (value : α) :
    ∃ w' calls, I w' ∧
      calls.map (Call.map d.placeOf N.ofContainer) =
        (within m.toNat (ts.flatMap Tree.story)).filterMap Limited.call? ∧
      s.fold d.recorded l onFound none value =
        { value := (replayWithin m onFound (value, s.tally)
            (within m.toNat (ts.flatMap Tree.story))).1
          tally := (replayWithin m onFound (value, s.tally)
            (within m.toNat (ts.flatMap Tree.story))).2
          world := (w', s.world.2 ++ calls) } := by
  induction h generalizing s value with
  | nil =>
    refine ⟨s.world.1, [], hw, rfl, ?_⟩
    rw [fold_of_ended (by simp) (step_of_done hframes hroots), List.append_nil]
    rfl
  | @cons e t es ts ht _ ih =>
    rw [List.flatMap_cons, within_append, List.countP_append] at hb
    rw [List.flatMap_cons, within_append]
    have hstep := step_of_root (d := d.recorded) (l := l) hframes hroots (by omega)
    obtain ⟨w₁, calls, hw₁, hcalls, hfold⟩ := passes_of_is N ht hl hstep hw
      (hts t (List.mem_cons_self ..)) (Nat.zero_le _) (by simp only; omega) value
    obtain ⟨w₂, more, hw₂, hmore, hfold'⟩ := ih (fun t ht => hts t (List.mem_cons_of_mem _ ht))
      (s := { s with
        world := (w₁, s.world.2 ++ calls)
        tally := (replayWithin m onFound (value, s.tally) (within m.toNat t.story)).2
        roots := es.map .entry }) hframes rfl hw₁
      (by simp only [entriesSeen_replayWithin]; omega)
      (replayWithin m onFound (value, s.tally) (within m.toNat t.story)).1
    refine ⟨w₂, calls ++ more, hw₂, ?_, ?_⟩
    · rw [List.map_append, hcalls, hmore, List.filterMap_append]
    · rw [hfold, hfold', replayWithin_append, List.append_assoc]

end Simulation

/-! ## Whole walks -/

/-- The state with calls kept beside the world. -/
def State.recorded (s : State world entry position) :
    State (world × List (Call entry container)) entry position :=
  { world := (s.world, []), tally := s.tally, frames := s.frames, roots := s.roots }

/-- The calls of a walk. -/
def callsFrom (d : Decoder world entry container position) (l : Limits)
    (s : State world entry position) : List (Call entry container) :=
  (occurrences d.recorded l none s.recorded).world.2

/-- Keeping the calls changes nothing else in a walk, but for what is printed. -/
theorem occurrences_eq_recorded (d : Decoder world entry container position) (l : Limits)
    (s : State world entry position) :
    let r := occurrences d l none s
    let r' := occurrences d.recorded l none s.recorded
    r.value = r'.value ∧ r.tally.quiet = r'.tally.quiet ∧ r.fault = r'.fault := by
  obtain ⟨hvalue, htally, -, hfault⟩ := occurrences_of_view (l := l) d.shows_recorded none
    (s.recorded : State (world × List (Call entry container)) entry position) s rfl
  exact ⟨hvalue, htally, hfault⟩

/-- A walk with a limit of depth over entries that are trees in all worlds of an invariant. -/
theorem occurrences_of_isAll {d : Decoder world entry container position} (N : Nesting d)
    {I : world → Prop} {es : List entry} {ts : List Tree} (h : List.Forall₂ (Is d I) es ts)
    (hts : ∀ t ∈ ts, t.LiesAt 0) {m n : Int} {w : world} (hw : I w) (tally : Tally)
    (hn : tally.entriesSeen + ((ts.flatMap Tree.places).filter (·.depth ≤ m.toNat)).length ≤
      n.toNat) :
    let s : State world entry position := { world := w, tally, roots := es.map .entry }
    let l : Limits := { maxDepth := .atMost m, maxEntries := .atMost n }
    let r := occurrences d l none s
    let refused := (ts.flatMap Tree.containers).filter (·.depth = m.toNat)
    r.fault = none ∧
      r.value = ((ts.flatMap Tree.trace).filterMap Event.occurrence?).filter
        (·.place.depth ≤ m.toNat) ∧
      (handed (callsFrom d l s)).map d.placeOf =
        (ts.flatMap Tree.places).filter (·.depth ≤ m.toNat) ∧
      (entered (callsFrom d l s)).map N.ofContainer =
        (ts.flatMap Tree.containers).filter (·.depth < m.toNat) ∧
      (∃ kept, r.tally.diagnostics.toList = tally.diagnostics.toList ++ kept ∧
        kept.filter (·.fatal) = refused.map (depthDiagnostic m)) ∧
      r.tally.incomplete = (tally.incomplete || !refused.isEmpty) := by
  intro s l r refused
  have hplaces : ts.flatMap Tree.places = (ts.flatMap Tree.story).filterMap Happening.visited? :=
    (List.filterMap_flatMap ..).symm
  have hcontainers :
      ts.flatMap Tree.containers = (ts.flatMap Tree.story).filterMap Happening.opened? :=
    (List.filterMap_flatMap ..).symm
  have hfound : (ts.flatMap Tree.trace).filterMap Event.occurrence? =
      (ts.flatMap Tree.story).filterMap (·.event.occurrence?) := by
    simp only [List.filterMap_flatMap, ← Tree.map_event_story, List.filterMap_map]
    rfl
  have hbudget : tally.entriesSeen +
      (within m.toNat (ts.flatMap Tree.story)).countP Limited.isVisit ≤ l.budget := by
    rw [countP_isVisit, handed_within, ← hplaces]
    exact hn
  obtain ⟨w', calls, -, hcalls, hfold⟩ := fold_of_isAll N h (l := l) (m := m) rfl hts
    (s := s.recorded) rfl rfl hw hbudget []
  have hrecorded : occurrences d.recorded l none s.recorded =
      { value := (within m.toNat (ts.flatMap Tree.story)).filterMap
          fun y => y.met?.bind (·.event.occurrence?)
        tally := (replayWithin m (fun found o c => (o :: found, c)) (([] : List Occurrence), tally)
          (within m.toNat (ts.flatMap Tree.story))).2
        world := (w', calls) } := by
    rw [occurrences, hfold]
    simp only [replayWithin_collect, List.append_nil, List.reverse_reverse]
    rfl
  obtain ⟨hvalue, htally, hfault⟩ := occurrences_eq_recorded d l s
  rw [hrecorded] at hvalue htally hfault
  have hcallsFrom : callsFrom d l s = calls := by rw [callsFrom, hrecorded]
  have hdiagnostics := congrArg Tally.diagnostics htally
  have hincomplete := congrArg Tally.incomplete htally
  refine ⟨hfault, ?_, ?_, ?_, ?_, ?_⟩
  · rw [hfound, ← found_within]
    exact hvalue
  · rw [hplaces, ← handed_within, ← hcalls, hcallsFrom, handed_map]
  · rw [hcontainers, ← entered_within, ← hcalls, hcallsFrom, entered_map]
  · refine ⟨(within m.toNat (ts.flatMap Tree.story)).filterMap (Limited.diagnostic? m), ?_, ?_⟩
    · exact (congrArg Array.toList hdiagnostics).trans (diagnostics_replayWithin _)
    · rw [fatal_diagnostics, refused_within, ← hcontainers]
  · rw [show refused = _ from congrArg _ hcontainers, ← refused_within]
    exact hincomplete.trans (incomplete_replayWithin _)

end JndiScan.Walk
