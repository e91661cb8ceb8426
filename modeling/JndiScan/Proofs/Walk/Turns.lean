/-
Walks that are made one after the other and share what was met, and the calls that they make. A
decoder can be asked to keep the calls that it gets, which changes nothing else.
-/
import JndiScan.Load
import JndiScan.Proofs.Pool.Grouping
import JndiScan.Proofs.Walk.Runs

namespace JndiScan.Walk

variable {world entry container position : Type}
variable {d : Decoder world entry container position} {l : Limits}

/-! ## Calls kept -/

/-- A call that a walk makes for an entry or a container. -/
inductive Call (entry container : Type)
  | decoded (e : entry)
  | entered (c : container)

/-- The entry that was handed to the decoder. -/
def Call.entry? : Call entry container → Option entry
  | decoded e => some e
  | entered _ => none

/-- The entries that were handed to the decoder, in order. -/
def handed (calls : List (Call entry container)) : List entry := calls.filterMap Call.entry?

/-- Work with calls that are kept beside the world. -/
def noting {κ : Type} (calls : List κ) (work : EStateM Trouble world α) :
    EStateM Trouble (world × List κ) α :=
  fun w => mapWorld (·, w.2 ++ calls) (work w.1)

/-- The decoder that keeps the calls it gets beside the world, first call first. -/
def Decoder.recorded (d : Decoder world entry container position) :
    Decoder (world × List (Call entry container)) entry container position where
  placeOf := d.placeOf
  decode e := noting [.decoded e] (d.decode e)
  enter c := noting [.entered c] (d.enter c)
  pull p := noting [] (d.pull p)
  close p w := (d.close p w.1, w.2)
  closeFault? p w := d.closeFault? p w.1

theorem mapWorld_noting {κ : Type} (calls : List κ) (work : EStateM Trouble world α)
    (w : world × List κ) : mapWorld Prod.fst (noting calls work w) = work w.1 := by
  unfold noting
  cases work w.1 <;> rfl

/-- Keeping the calls changes nothing else. -/
theorem Decoder.shows_recorded (d : Decoder world entry container position) :
    d.recorded.Shows Prod.fst d where
  placeOf _ := rfl
  decode _ _ := (mapWorld_noting ..).symm
  enter _ _ := (mapWorld_noting ..).symm
  pull _ _ := (mapWorld_noting ..).symm
  close _ _ := rfl
  closeFault? _ _ := rfl

/-! ## Walks in turn -/

/-- Where a walk starts: the roots that are there when its turn comes, or the fault that ends it. -/
abbrev Start (world entry : Type) := world → Except Fault (List (Root entry))

/-- The start of a walk from a path. -/
def Start.ofPath (path : Text) : Start Session Entry := fun session =>
  (roots session.host path).mapError .path

/-- What comes after the end of a walk, unless a fault ended it. -/
def Outcome.andThen (r : Outcome (List Occurrence) world)
    (next : Tally → world → Outcome (List Occurrence) world) : Outcome (List Occurrence) world :=
  match r.fault with
  | some _ => r
  | none =>
    let rest := next r.tally r.world
    { rest with value := r.value ++ rest.value }

/-- The occurrences of one walk. -/
def occurrencesFrom (d : Decoder world entry container position) (l : Limits)
    (start : Start world entry) (tally : Tally) (w : world) : Outcome (List Occurrence) world :=
  match start w with
  | .ok roots => occurrences d l none { world := w, tally, roots }
  | .error fault => { value := [], tally, world := w, fault := some fault }

/-- The occurrences of walks that are made one after the other and share what was met. -/
def occurrencesInTurn (d : Decoder world entry container position) (l : Limits) :
    List (Start world entry) → Tally → world → Outcome (List Occurrence) world
  | [], tally, w => { value := [], tally, world := w }
  | start :: starts, tally, w =>
    (occurrencesFrom d l start tally w).andThen (occurrencesInTurn d l starts)

/-- Walks that are made one after the other, with their calls kept. -/
def recordedInTurn (d : Decoder world entry container position) (l : Limits)
    (starts : List (Start world entry)) (tally : Tally) (w : world) :
    Outcome (List Occurrence) (world × List (Call entry container)) :=
  occurrencesInTurn d.recorded l (starts.map fun start w => start w.1) tally (w, [])

/-- The calls of walks that are made one after the other. -/
def callsInTurn (d : Decoder world entry container position) (l : Limits)
    (starts : List (Start world entry)) (tally : Tally) (w : world) :
    List (Call entry container) :=
  (recordedInTurn d l starts tally w).world.2

theorem occurrencesFrom_ofPath (D : Decoding) (path : Text) (tally : Tally) (session : Session) :
    occurrencesFrom D.decoder l (.ofPath path) tally session =
      occurrencesAt D l none path tally session := by
  unfold occurrencesFrom occurrencesAt start Start.ofPath
  cases roots session.host path <;> rfl

theorem andThen_assoc (r : Outcome (List Occurrence) world)
    (f g : Tally → world → Outcome (List Occurrence) world) :
    (r.andThen f).andThen g = r.andThen fun t w => (f t w).andThen g := by
  unfold Outcome.andThen
  cases hr : r.fault with
  | some fault => simp only [hr]
  | none =>
    simp only
    cases hf : (f r.tally r.world).fault with
    | some fault => simp only [hf]
    | none => simp only [List.append_assoc]

theorem occurrencesInTurn_append (starts more : List (Start world entry)) (tally : Tally)
    (w : world) :
    occurrencesInTurn d l (starts ++ more) tally w =
      (occurrencesInTurn d l starts tally w).andThen (occurrencesInTurn d l more) := by
  induction starts generalizing tally w with
  | nil => rfl
  | cons start starts ih =>
    rw [List.cons_append, occurrencesInTurn, occurrencesInTurn, andThen_assoc]
    congr 1
    funext t w
    exact ih t w

/-- What every step keeps of what was met and of the world, walks in turn keep. -/
theorem occurrencesInTurn_keeps {P : Tally → world → Prop}
    (hstep : ∀ s, P s.tally s.world → P (step d l s).state.tally (step d l s).state.world)
    {starts : List (Start world entry)} {tally : Tally} {w : world} (h : P tally w) :
    let r := occurrencesInTurn d l starts tally w
    P r.tally r.world := by
  intro r
  induction starts generalizing tally w with
  | nil => exact h
  | cons start starts ih =>
    have hfirst : P (occurrencesFrom d l start tally w).tally
        (occurrencesFrom d l start tally w).world := by
      unfold occurrencesFrom
      cases start w with
      | error fault => exact h
      | ok roots => exact occurrences_keeps hstep h
    simp only [r, occurrencesInTurn, Outcome.andThen]
    cases (occurrencesFrom d l start tally w).fault with
    | some fault => exact hfirst
    | none => exact ih hfirst

section Shows

variable {world' : Type} {φ : world → world'} {d' : Decoder world' entry container position}

theorem occurrencesFrom_of_shows (h : d.Shows φ d') (start : Start world' entry)
    {tally tally' : Tally} {w : world} (ht : tally'.quiet = tally.quiet) :
    let r := occurrencesFrom d l (fun w => start (φ w)) tally w
    let r' := occurrencesFrom d' l start tally' (φ w)
    r'.value = r.value ∧ r'.tally.quiet = r.tally.quiet ∧ r'.world = φ r.world ∧
      r'.fault = r.fault := by
  unfold occurrencesFrom
  cases hroots : start (φ w) with
  | error fault =>
    simp only [hroots]
    exact ⟨trivial, ht, trivial, trivial⟩
  | ok roots =>
    simp only [hroots]
    exact occurrences_of_view h none ⟨w, tally, [], roots⟩ ⟨φ w, tally', [], roots⟩
      (by simp only [State.view, ht, id_eq])

/-- Walks in turn of a decoder that sees less are those in the whole world. -/
theorem occurrencesInTurn_of_shows (h : d.Shows φ d') {starts : List (Start world' entry)}
    {tally tally' : Tally} {w : world} (ht : tally'.quiet = tally.quiet) :
    let r := occurrencesInTurn d l (starts.map fun start w => start (φ w)) tally w
    let r' := occurrencesInTurn d' l starts tally' (φ w)
    r'.value = r.value ∧ r'.tally.quiet = r.tally.quiet ∧ r'.world = φ r.world ∧
      r'.fault = r.fault := by
  induction starts generalizing tally tally' w with
  | nil => exact ⟨rfl, ht, rfl, rfl⟩
  | cons start starts ih =>
    obtain ⟨hvalue, htally, hworld, hfault⟩ := occurrencesFrom_of_shows (l := l) h start (w := w) ht
    simp only [List.map_cons, occurrencesInTurn, Outcome.andThen, hfault]
    cases hf : (occurrencesFrom d l (fun w => start (φ w)) tally w).fault with
    | some fault => exact ⟨hvalue, htally, hworld, hfault⟩
    | none =>
      simp only [hworld, hvalue, (ih htally).1]
      exact ⟨trivial, (ih htally).2⟩

end Shows

/-- Keeping the calls changes nothing else in walks in turn, but for what is printed. -/
theorem occurrencesInTurn_eq_recorded (d : Decoder world entry container position) (l : Limits)
    (starts : List (Start world entry)) (tally : Tally) (w : world) :
    let r := occurrencesInTurn d l starts tally w
    let r' := recordedInTurn d l starts tally w
    r.value = r'.value ∧ r.tally.quiet = r'.tally.quiet ∧ r.world = r'.world.1 ∧
      r.fault = r'.fault :=
  occurrencesInTurn_of_shows d.shows_recorded (w := (w, [])) rfl

theorem entriesSeen_eq_recorded (d : Decoder world entry container position) (l : Limits)
    (starts : List (Start world entry)) (tally : Tally) (w : world) :
    (occurrencesInTurn d l starts tally w).tally.entriesSeen =
      (recordedInTurn d l starts tally w).tally.entriesSeen :=
  have h := (occurrencesInTurn_eq_recorded d l starts tally w).2.1
  show Tally.entriesSeen (Tally.quiet _) = Tally.entriesSeen (Tally.quiet _) from
    congrArg Tally.entriesSeen h

theorem diagnostics_eq_recorded (d : Decoder world entry container position) (l : Limits)
    (starts : List (Start world entry)) (tally : Tally) (w : world) :
    (occurrencesInTurn d l starts tally w).tally.diagnostics =
      (recordedInTurn d l starts tally w).tally.diagnostics :=
  have h := (occurrencesInTurn_eq_recorded d l starts tally w).2.1
  show Tally.diagnostics (Tally.quiet _) = Tally.diagnostics (Tally.quiet _) from
    congrArg Tally.diagnostics h

/-- The pool of a path holds the occurrences of the walk from it. -/
theorem value_load {D : Decoding} {φ : world → Session}
    {d : Decoder world Entry Container Position} (h : d.Shows φ D.decoder) (l : Limits)
    (path : Text) {tally tally' : Tally} (ht : tally'.quiet = tally.quiet) (w : world) :
    (Pool.load D l path tally' (φ w)).value =
      Pool.ofOccurrences
        (occurrencesFrom d l (fun w => Start.ofPath path (φ w)) tally w).value := by
  unfold Pool.load foldPath occurrencesFrom Start.ofPath start
  cases hroots : roots (φ w).host path with
  | error fault => simp only [hroots]; rfl
  | ok roots =>
    simp only [hroots]
    exact (fold_of_view h Pool.takeIn (f := fun pool o => (pool.accept o).2) (fun _ _ _ => rfl) none {}
      ⟨w, tally, [], roots⟩ ⟨φ w, tally', [], roots⟩ (by simp only [State.view, ht, id_eq])).1

end JndiScan.Walk
