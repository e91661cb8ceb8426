/-
A walk over entries that unfold to trees meets what the recursive traversal of the trees meets, in
its order: the stack of half-used containers is the recursion, told step by step. `fold_of_unfolds`
says so for one entry, below any stack, and `fold_of_delivers` for what is left of the container on
top of the stack.
-/
import JndiScan.Proofs.Walk.Tree

namespace JndiScan.Walk

variable {world entry container position : Type}
variable {d : Decoder world entry container position} {l : Limits}

/-! ## Events -/

/-- What is kept of an event. -/
def Tally.note (t : Tally) : Event → Tally
  | .visited => { t with entriesSeen := t.entriesSeen + 1 }
  | .found _ => t
  | .skipped place => t.debug ("entry skipped reason=unrecognized entry=" ++ place.text)
  | .opened kind place =>
    t.debug ("container open kind=" ++ kind.label ++ " entry=" ++ place.text)
  | .failed location failure => t.addFailure location failure

/-- What becomes of a value and a tally when an event is met. -/
def react (onFound : α → Occurrence → Console → α × Console) (x : α × Tally) : Event → α × Tally
  | .found o =>
    let (value, console) := onFound x.1 o x.2.console
    (value, { x.2 with console })
  | event => (x.1, x.2.note event)

/-- What becomes of a value and a tally on a trace. -/
def replay (onFound : α → Occurrence → Console → α × Console) (x : α × Tally)
    (trace : List Event) : α × Tally :=
  trace.foldl (react onFound) x

section Replay

variable {onFound : α → Occurrence → Console → α × Console} {x : α × Tally}

theorem replay_append (xs ys : List Event) :
    replay onFound x (xs ++ ys) = replay onFound (replay onFound x xs) ys :=
  List.foldl_append ..

theorem entriesSeen_replay (trace : List Event) :
    (replay onFound x trace).2.entriesSeen =
      x.2.entriesSeen + trace.countP Event.isVisit := by
  induction trace generalizing x with
  | nil => rfl
  | cons event trace ih =>
    rw [replay, List.foldl_cons, ← replay, ih, List.countP_cons]
    cases event with
    | visited =>
      simp only [react, Tally.note, Event.isVisit, if_true]
      omega
    | _ => simp [react, Tally.note, Tally.debug, Tally.addFailure, Event.isVisit]

theorem incomplete_replay (trace : List Event) :
    (replay onFound x trace).2.incomplete = x.2.incomplete := by
  induction trace generalizing x with
  | nil => rfl
  | cons event trace ih =>
    rw [replay, List.foldl_cons, ← replay, ih]
    cases event <;> rfl

theorem diagnostics_replay (trace : List Event) :
    (replay onFound x trace).2.diagnostics.toList =
      x.2.diagnostics.toList ++ trace.filterMap Event.diagnostic? := by
  induction trace generalizing x with
  | nil => simp [replay]
  | cons event trace ih =>
    rw [replay, List.foldl_cons, ← replay, ih, List.filterMap_cons]
    cases event <;>
      simp [react, Tally.note, Tally.debug, Tally.addFailure, Event.diagnostic?]

end Replay

theorem replay_collect (found : List Occurrence) (t : Tally) (trace : List Event) :
    (replay (fun found o c => (o :: found, c)) (found, t) trace).1 =
      (trace.filterMap Event.occurrence?).reverse ++ found := by
  induction trace generalizing found t with
  | nil => rfl
  | cons event trace ih =>
    rw [replay, List.foldl_cons, ← replay, List.filterMap_cons]
    cases event with
    | found o => simp [react, Event.occurrence?, ih]
    | _ => exact ih ..

/-! ## Steps of a whole walk -/

section Fold

variable {onFound : α → Occurrence → Console → α × Console} {wanted : Option Nat} {value : α}
variable {s s' : State world entry position}

theorem fold_of_continues (hw : wanted ≠ some 0) (h : step d l s = .continues s') :
    s.fold d l onFound wanted value = s'.fold d l onFound wanted value := by
  rw [State.fold]
  · split
    · next h' => cases h.symm.trans h'; rfl
    all_goals next h' => cases h.symm.trans h'
  · exact hw

theorem fold_of_found (hw : wanted ≠ some 0) {o : Occurrence} (h : step d l s = .found o s') :
    s.fold d l onFound wanted value =
      (s'.setConsole (onFound value o s'.tally.console).2).fold d l onFound (wanted.map (· - 1))
        (onFound value o s'.tally.console).1 := by
  rw [State.fold]
  · split
    · next h' => cases h.symm.trans h'
    · next h' => cases h.symm.trans h'; rfl
    all_goals next h' => cases h.symm.trans h'
  · exact hw

theorem fold_of_ended (hw : wanted ≠ some 0) (h : step d l s = .ended s') :
    s.fold d l onFound wanted value = s'.outcome value := by
  rw [State.fold]
  · split
    · next h' => cases h.symm.trans h'
    · next h' => cases h.symm.trans h'
    · next h' => cases h.symm.trans h'; rfl
    · next h' => cases h.symm.trans h'
  · exact hw

end Fold

/-! ## Visits within the limits -/

section Visit

variable {s : State world entry position} {e : entry} {depth : Nat}

theorem isExhausted_note_visited {t : Tally} (h : t.entriesSeen < l.budget) :
    isExhausted l (t.note .visited) = false := by
  simp only [isExhausted, Tally.note]
  exact decide_eq_false (by omega)

/-- Within the budget a visit goes as decoding the entry goes. -/
theorem visit_of_decode (hb : s.tally.entriesSeen < l.budget) :
    visit d l e depth s =
      match d.decode e s.world with
      | .ok (.definition o) world => .found o { s with world, tally := s.tally.note .visited }
      | .ok (.container kind place contents) world =>
        expand d l kind place contents depth { s with world, tally := s.tally.note .visited }
      | .ok (.unrecognized _) world => .continues
        { s with world, tally := (s.tally.note .visited).note (.skipped (d.placeOf e)) }
      | .error (.failed failure) world => .continues
        { s with
          world
          tally := (s.tally.note .visited).note (.failed (d.placeOf e).text failure) }
      | .error (.aborted fault) world =>
        abort d fault { s with world, tally := s.tally.note .visited } := by
  have hx := isExhausted_note_visited hb
  simp only [Tally.note] at hx
  unfold visit
  simp only [State.mapTally, hx]
  rfl

/-- At a depth that is allowed, a container is expanded as entering it goes. -/
theorem expand_of_enter {m : Int} (hl : l.maxDepth = .atMost m) (hm : depth < m.toNat)
    (kind : EntryKind) (place : Provenance) (contents : container) :
    expand d l kind place contents depth s =
      match d.enter contents s.world with
      | .ok p world => .continues
        { s with
          world
          tally := s.tally.note (.opened kind place)
          frames := (p, depth + 1) :: s.frames }
      | .error (.failed failure) world => .continues
        { s with
          world
          tally := (s.tally.note (.opened kind place)).note (.failed place.text failure) }
      | .error (.aborted fault) world =>
        abort d fault { s with world, tally := s.tally.note (.opened kind place) } := by
  have hle : ¬ (depth : Int) + 1 > m := by omega
  unfold expand
  simp only [hl, hle, if_false, State.mapTally]
  rfl

end Visit

/-! ## The stack and the recursion -/

section Simulation

variable {onFound : α → Occurrence → Console → α × Console}

/-- The step from a state whose top container is asked for its next entry. -/
theorem step_of_pull {s : State world entry position} {p : position} {depth : Nat}
    {frames : List (position × Nat)} (hf : s.frames = (p, depth) :: frames)
    (hb : s.tally.entriesSeen ≤ l.budget) :
    step d l s =
      match d.pull p s.world with
      | .ok (some (e, p)) world =>
        visit d l e depth { s with world, frames := (p, depth) :: frames }
      | .ok none world => .continues { s with world, frames }
      | .error (.failed failure) world =>
        .continues ({ s with world, frames }.mapTally (·.addFailure failure.location failure))
      | .error (.aborted fault) world => abort d fault { s with world, frames } := by
  have hx : isExhausted l s.tally = false := by simpa [isExhausted] using hb
  unfold step
  simp only [hf, hx]
  rfl

theorem step_of_root {s : State world entry position} {e : entry}
    {roots : List (Root entry)} (hf : s.frames = []) (hr : s.roots = .entry e :: roots)
    (hb : s.tally.entriesSeen ≤ l.budget) : step d l s = visit d l e 0 { s with roots } := by
  have hx : isExhausted l s.tally = false := by simpa [isExhausted] using hb
  unfold step
  simp only [hf, hr, hx]
  rfl

theorem step_of_done {s : State world entry position} (hf : s.frames = []) (hr : s.roots = []) :
    step d l s = .ended s := by
  unfold step
  simp only [hf, hr]

mutual

/-- A step that visits an entry begins a part of the walk that ends with the containers below it as
they were, after what the recursive traversal of the entry meets. -/
theorem fold_of_unfolds {w w' : world} {e : entry} {t : Tree} (h : Unfolds d w e t w') {m : Int}
    (hl : l.maxDepth = .atMost m) {s₀ s : State world entry position} {depth : Nat} {value : α}
    (hstep : step d l s₀ = visit d l e depth s) (hw : s.world = w)
    (hm : t.height = 0 ∨ depth + t.height ≤ m.toNat)
    (hb : s.tally.entriesSeen + t.size ≤ l.budget) :
    s₀.fold d l onFound none value =
      { s with
        world := w'
        tally := (replay onFound (value, s.tally) t.trace).2 }.fold d l onFound none
          (replay onFound (value, s.tally) t.trace).1 := by
  subst hw
  cases h with
  | leaf hd =>
    rw [Tree.size] at hb
    rw [visit_of_decode (by omega), hd] at hstep
    rw [fold_of_found (by simp) hstep]
    rfl
  | other hd =>
    rw [Tree.size] at hb
    rw [visit_of_decode (by omega), hd] at hstep
    rw [fold_of_continues (by simp) hstep]
    rfl
  | broken hd =>
    rw [Tree.size] at hb
    rw [visit_of_decode (by omega), hd] at hstep
    rw [fold_of_continues (by simp) hstep]
    rfl
  | sealed hd he =>
    rw [Tree.size] at hb
    rw [Tree.height] at hm
    rw [visit_of_decode (by omega), hd] at hstep
    simp only [expand_of_enter hl (show depth < m.toNat by omega), he] at hstep
    rw [fold_of_continues (by simp) hstep]
    rfl
  | node hd he hp =>
    rw [Tree.size] at hb
    rw [Tree.height] at hm
    rw [visit_of_decode (by omega), hd] at hstep
    simp only [expand_of_enter hl (show depth < m.toNat by omega), he] at hstep
    rw [fold_of_continues (by simp) hstep, fold_of_delivers hp hl rfl rfl (by omega)
      (by simp only [Tally.note, Tally.debug]; omega)]
    rfl

/-- What is left of the top container is gone through before anything below it is touched. -/
theorem fold_of_delivers {w w' : world} {p : position} {f : Forest} (h : Delivers d w p f w')
    {m : Int} (hl : l.maxDepth = .atMost m) {s : State world entry position} {depth : Nat}
    {frames : List (position × Nat)} {value : α} (hf : s.frames = (p, depth) :: frames)
    (hw : s.world = w) (hm : f.height = 0 ∨ depth + f.height ≤ m.toNat)
    (hb : s.tally.entriesSeen + f.size ≤ l.budget) :
    s.fold d l onFound none value =
      { s with
        world := w'
        tally := (replay onFound (value, s.tally) f.trace).2
        frames }.fold d l onFound none (replay onFound (value, s.tally) f.trace).1 := by
  subst hw
  have hstep := step_of_pull (d := d) hf (Nat.le_of_add_right_le hb)
  cases h with
  | done hp =>
    rw [hp] at hstep
    rw [fold_of_continues (by simp) hstep]
    rfl
  | cut hp =>
    rw [hp] at hstep
    rw [fold_of_continues (by simp) hstep]
    rfl
  | more hp ht hrest =>
    rw [hp] at hstep
    rw [Forest.size] at hb
    rw [Forest.height] at hm
    rw [fold_of_unfolds ht hl hstep rfl (by omega) (by simp only; omega),
      fold_of_delivers hrest hl rfl rfl (by omega) ?_]
    · rw [Forest.trace, replay_append]
    · rw [entriesSeen_replay, Tree.countP_trace]
      simp only
      omega

end

/-- The roots of a walk are gone through one after the other. -/
theorem fold_of_unfoldsAll {w w' : world} {es : List entry} {ts : List Tree}
    (h : UnfoldsAll d w es ts w') {m : Int} (hl : l.maxDepth = .atMost m)
    (hm : ∀ t ∈ ts, t.height ≤ m.toNat) {s : State world entry position} {value : α}
    (hf : s.frames = []) (hr : s.roots = es.map .entry) (hw : s.world = w)
    (hb : s.tally.entriesSeen + (ts.map Tree.size).sum ≤ l.budget) :
    s.fold d l onFound none value =
      { value := (replay onFound (value, s.tally) (ts.flatMap Tree.trace)).1
        tally := (replay onFound (value, s.tally) (ts.flatMap Tree.trace)).2
        world := w' } := by
  induction h generalizing s value with
  | nil =>
    subst hw
    rw [fold_of_ended (by simp) (step_of_done hf hr)]
    rfl
  | @cons w w₁ w' e es t ts ht _ ih =>
    have hbudget : s.tally.entriesSeen + (t.size + (ts.map Tree.size).sum) ≤ l.budget := hb
    have hheight : t.height ≤ m.toNat := hm t (List.mem_cons_self ..)
    have hstep := step_of_root (d := d) (l := l) hf hr (by omega)
    rw [fold_of_unfolds ht hl hstep hw (by omega) (by simp only; omega)]
    refine (ih ?_ ?_ ?_ ?_ ?_).trans ?_
    · exact fun t h => hm t (List.mem_cons_of_mem _ h)
    · exact hf
    · rfl
    · rfl
    · rw [entriesSeen_replay, Tree.countP_trace]
      simp only
      omega
    · simp only [List.flatMap_cons, replay_append]

end Simulation

/-- The walk over entries that unfold to trees gives the classes that the recursive traversal of the
trees meets, in its order. It visits every entry once; every failure leaves one diagnostic, which is
not fatal, and costs what the trees say: its entry, or what its container had not delivered. The
result is complete as far as it was before. -/
theorem occurrences_eq_trace (d : Decoder world entry container position) {m n : Int}
    {w w' : world} {es : List entry} {ts : List Tree} (tally : Tally)
    (h : UnfoldsAll d w es ts w') (hm : ∀ t ∈ ts, t.height ≤ m.toNat)
    (hn : tally.entriesSeen + (ts.map Tree.size).sum ≤ n.toNat) :
    let r := occurrences d { maxDepth := .atMost m, maxEntries := .atMost n } none
      { world := w, tally, roots := es.map .entry }
    let trace := ts.flatMap Tree.trace
    r.fault = none ∧ r.value = trace.filterMap Event.occurrence? ∧
      r.tally.entriesSeen = tally.entriesSeen + (ts.map Tree.size).sum ∧
      r.tally.diagnostics.toList =
        tally.diagnostics.toList ++ trace.filterMap Event.diagnostic? ∧
      (∀ x ∈ trace.filterMap Event.diagnostic?, x.fatal = false) ∧
      r.tally.incomplete = tally.incomplete ∧ r.world = w' := by
  intro r trace
  have hfold : r = _ := congrArg (fun r : Outcome (List Occurrence) world =>
    { r with value := r.value.reverse }) (fold_of_unfoldsAll
      (l := { maxDepth := .atMost m, maxEntries := .atMost n }) (s := { world := w, tally, roots := _ })
      h rfl hm rfl rfl rfl hn)
  rw [hfold]
  refine ⟨rfl, ?_, ?_, diagnostics_replay _, ?_, incomplete_replay _, rfl⟩
  · simp [replay_collect, trace]
  · simp only
    rw [entriesSeen_replay, countP_flatMap_trace]
  · intro x hx
    obtain ⟨event, -, he⟩ := List.mem_filterMap.1 hx
    cases event <;> cases he
    rfl

/-! ## A damaged jar -/

/-- A class below a jar. -/
def jarClass (names : List Text) : Occurrence where
  definition := { name := names.getLast?.getD [], superName := none }
  place := { root := "/a.jar", segments := names }

/-- A jar with a class that does not decode, a jar that fails after its first class, a payload that
cannot be opened, and a class behind them. -/
def damagedJar : Tree :=
  .node .archive { root := "/a.jar" }
    (.more (.broken (jarClass ["Broken"]).place (.entry (jarClass ["Broken"]).place (.oversize 9 8)))
      (.more (.node .archive (jarClass ["inner.jar"]).place
          (.more (.leaf (jarClass ["inner.jar", "First"])) (.cut (.system (.system .notFound [])))))
        (.more (.sealed .dalvik (jarClass ["classes.dex"]).place
            (.entry (jarClass ["classes.dex"]).place (.oversize 9 8)))
          (.more (.leaf (jarClass ["Last"])) .done))))

/-- Two failures of entries and one of a container in the middle cost nothing else. -/
theorem occurrences_eq_trace_damagedJar :
    UnfoldsAll Tree.decoder () [damagedJar, .leaf (jarClass ["Next"])]
        [damagedJar, .leaf (jarClass ["Next"])] () ∧
      (∀ t ∈ [damagedJar, .leaf (jarClass ["Next"])], t.height ≤ (2 : Int).toNat) ∧
      0 + ([damagedJar, .leaf (jarClass ["Next"])].map Tree.size).sum ≤ (7 : Int).toNat ∧
      let r := occurrences Tree.decoder { maxDepth := .atMost 2, maxEntries := .atMost 7 } none
        { world := (), tally := { console := { verbose := false } }
          roots := [damagedJar, .leaf (jarClass ["Next"])].map .entry }
      r.fault = none ∧
        r.value = [jarClass ["inner.jar", "First"], jarClass ["Last"], jarClass ["Next"]] ∧
        r.tally.entriesSeen = 7 ∧ r.tally.diagnostics.toList.length = 3 ∧
        r.tally.incomplete = false := by
  have hm : ∀ t ∈ [damagedJar, .leaf (jarClass ["Next"])], t.height ≤ (2 : Int).toNat := by
    decide
  have hn : 0 + ([damagedJar, .leaf (jarClass ["Next"])].map Tree.size).sum ≤ (7 : Int).toNat := by
    decide
  have hunfolds := unfoldsAll_self [damagedJar, .leaf (jarClass ["Next"])]
  obtain ⟨hfault, hvalue, hseen, hdiagnostics, -, hincomplete, -⟩ :=
    occurrences_eq_trace Tree.decoder { console := { verbose := false } } hunfolds hm hn
  refine ⟨hunfolds, hm, hn, hfault, hvalue, hseen, ?_, hincomplete⟩
  rw [hdiagnostics]
  rfl

end JndiScan.Walk
