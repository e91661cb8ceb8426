/-
The moves that a walk makes with its decoder: the entries it visits, and for every container how it
is opened, gone on in and left. A decoder can be asked to keep them, which changes nothing else. The
containers on the stack are those that the moves leave open, innermost first; so at the end of a
walk every container that was opened has given its last entry, has failed or was closed.
-/
import JndiScan.Proofs.Walk.Steps

namespace JndiScan.Walk

/-- How an opened container is left. -/
inductive Leaving
  | exhausted
  | failed
  | closed
  deriving DecidableEq, Repr

/-- A move of a walk. An entry is visited, perhaps with a class found; a container is opened, gone
on in from one position to the next, and left. -/
inductive Move (entry position : Type)
  | visited (e : entry) (o : Option Occurrence)
  | opened (p : position)
  | advanced (p next : position)
  | left (how : Leaving) (p : position)

variable {world entry container position : Type}

namespace Move

/-- Is it the visit of an entry? -/
def isVisit : Move entry position → Bool
  | visited _ _ => true
  | _ => false

/-- The class that is found. -/
def found? : Move entry position → Option Occurrence
  | visited _ o => o
  | _ => none

end Move

/-! ## Moves kept -/

/-- Work with the moves that it is, told by what it gives. -/
def keeping {κ : Type} (moves : Except Trouble α → List κ) (work : EStateM Trouble world α) :
    EStateM Trouble (world × List κ) α :=
  fun w =>
    match work w.1 with
    | .ok x w' => .ok x (w', w.2 ++ moves (.ok x))
    | .error trouble w' => .error trouble (w', w.2 ++ moves (.error trouble))

theorem mapWorld_keeping {κ : Type} (moves : Except Trouble α → List κ)
    (work : EStateM Trouble world α) (w : world × List κ) :
    mapWorld Prod.fst (keeping moves work w) = work w.1 := by
  unfold keeping
  cases work w.1 <;> rfl

section Keeping

variable {κ : Type} {moves : Except Trouble α → List κ} {work : EStateM Trouble world α}
variable {w w' : world × List κ}

theorem keeping_eq_ok {x : α} (h : keeping moves work w = .ok x w') :
    w'.2 = w.2 ++ moves (.ok x) := by
  unfold keeping at h
  cases hx : work w.1 <;> rw [hx] at h <;> cases h
  rfl

theorem keeping_eq_error {trouble : Trouble} (h : keeping moves work w = .error trouble w') :
    w'.2 = w.2 ++ moves (.error trouble) := by
  unfold keeping at h
  cases hx : work w.1 <;> rw [hx] at h <;> cases h
  rfl

end Keeping

namespace Move

/-- The visit of an entry, by what it turns out to be. -/
def ofDecode (e : entry) : Except Trouble (Decoded container) → List (Move entry position)
  | .ok (.definition o) => [.visited e (some o)]
  | _ => [.visited e none]

/-- The opening of a container, if it can be opened. -/
def ofEnter : Except Trouble position → List (Move entry position)
  | .ok p => [.opened p]
  | .error _ => []

/-- What becomes of a position that is asked for the next entry. -/
def ofPull (p : position) : Except Trouble (Option (entry × position)) → List (Move entry position)
  | .ok (some next) => [.advanced p next.2]
  | .ok none => [.left .exhausted p]
  | .error _ => [.left .failed p]

end Move

/-- The decoder that keeps beside the world the moves made with it, first move first. -/
def Decoder.tracked (d : Decoder world entry container position) :
    Decoder (world × List (Move entry position)) entry container position where
  placeOf := d.placeOf
  decode e := keeping (Move.ofDecode e) (d.decode e)
  enter c := keeping Move.ofEnter (d.enter c)
  pull p := keeping (Move.ofPull p) (d.pull p)
  close p w := (d.close p w.1, w.2 ++ [.left .closed p])
  closeFault? p w := d.closeFault? p w.1

/-- Keeping the moves changes nothing else. -/
theorem Decoder.shows_tracked (d : Decoder world entry container position) :
    d.tracked.Shows Prod.fst d where
  placeOf _ := rfl
  decode _ _ := (mapWorld_keeping ..).symm
  enter _ _ := (mapWorld_keeping ..).symm
  pull _ _ := (mapWorld_keeping ..).symm
  close _ _ := rfl
  closeFault? _ _ := rfl

/-- The state with no moves kept yet. -/
def State.tracked (s : State world entry position) :
    State (world × List (Move entry position)) entry position :=
  { world := (s.world, []), tally := s.tally, frames := s.frames, roots := s.roots }

/-- The moves of a walk. -/
def moves (d : Decoder world entry container position) (l : Limits) (wanted : Option Nat)
    (s : State world entry position) : List (Move entry position) :=
  (occurrences d.tracked l wanted s.tracked).world.2

theorem occurrences_eq_tracked (d : Decoder world entry container position) (l : Limits)
    (wanted : Option Nat) (s : State world entry position) :
    let r := occurrences d l wanted s
    let r' := occurrences d.tracked l wanted s.tracked
    r.value = r'.value ∧ r.tally.quiet = r'.tally.quiet ∧ r.world = r'.world.1 ∧
      r.fault = r'.fault :=
  occurrences_of_view d.shows_tracked wanted s.tracked s rfl

/-! ## Containers left open -/

/-- The moves leave these containers open, the innermost first. Only the innermost one is gone on in
or left, and none of them is left twice. -/
inductive StillOpen : List (Move entry position) → List position → Prop
  | nil : StillOpen [] []
  | visited {moves : List (Move entry position)} {inside : List position} (e : entry)
      (o : Option Occurrence) :
    StillOpen moves inside → StillOpen (moves ++ [.visited e o]) inside
  | opened {moves : List (Move entry position)} {inside : List position} (p : position) :
    StillOpen moves inside → StillOpen (moves ++ [.opened p]) (p :: inside)
  | advanced {moves : List (Move entry position)} {inside : List position} (p next : position) :
    StillOpen moves (p :: inside) → StillOpen (moves ++ [.advanced p next]) (next :: inside)
  | left {moves : List (Move entry position)} {inside : List position} (how : Leaving)
      (p : position) :
    StillOpen moves (p :: inside) → StillOpen (moves ++ [.left how p]) inside

/-! ## What a walk comes to -/

/-- How far a walk is: its moves, the containers it is in, and the number of entries seen. -/
structure Progress (entry position : Type) where
  moves : List (Move entry position)
  inside : List position
  seen : Nat

/-- How far the walk is in a state. -/
def State.progress (s : State (world × List (Move entry position)) entry position) :
    Progress entry position where
  moves := s.world.2
  inside := s.frames.map Prod.fst
  seen := s.tally.entriesSeen

/-- A walk goes on to somewhere, and finds classes on the way. An entry is visited within the
budget, and the one that exceeds it is only counted. -/
inductive Goes (l : Limits) (a : Progress entry position) :
    List Occurrence → Progress entry position → Prop
  | here : Goes l a [] a
  | visited {found : List Occurrence} {b : Progress entry position} (e : entry)
      (o : Option Occurrence) :
    Goes l a found b → b.seen < l.budget →
    Goes l a (found ++ o.toList) ⟨b.moves ++ [.visited e o], b.inside, b.seen + 1⟩
  | exceeded {found : List Occurrence} {b : Progress entry position} :
    Goes l a found b → b.seen = l.budget → Goes l a found { b with seen := b.seen + 1 }
  | opened {found : List Occurrence} {b : Progress entry position} (p : position) :
    Goes l a found b → Goes l a found ⟨b.moves ++ [.opened p], p :: b.inside, b.seen⟩
  | advanced {found : List Occurrence} {moves : List (Move entry position)}
      {inside : List position} {seen : Nat} (p next : position) :
    Goes l a found ⟨moves, p :: inside, seen⟩ →
    Goes l a found ⟨moves ++ [.advanced p next], next :: inside, seen⟩
  | left {found : List Occurrence} {moves : List (Move entry position)}
      {inside : List position} {seen : Nat} (how : Leaving) (p : position) :
    Goes l a found ⟨moves, p :: inside, seen⟩ →
    Goes l a found ⟨moves ++ [.left how p], inside, seen⟩

/-- The number of entries that are visited. -/
def visits (moves : List (Move entry position)) : Nat := moves.countP Move.isVisit

namespace Goes

variable {l : Limits} {a b c : Progress entry position} {found more : List Occurrence}

theorem trans (h : Goes l a found b) (h' : Goes l b more c) : Goes l a (found ++ more) c := by
  induction h' with
  | here => simpa using h
  | visited e o _ hb ih => simpa using ih.visited e o hb
  | exceeded _ hb ih => exact ih.exceeded hb
  | opened p _ ih => exact ih.opened p
  | advanced p next _ ih => exact ih.advanced p next
  | left how p _ ih => exact ih.left how p

/-- All containers are closed, one after the other. -/
theorem closed {moves : List (Move entry position)} {inside : List position} {seen : Nat}
    (h : Goes l a found ⟨moves, inside, seen⟩) :
    Goes l a found ⟨moves ++ inside.map (.left .closed), [], seen⟩ := by
  induction inside generalizing moves with
  | nil => simpa using h
  | cons p inside ih => simpa using ih (h.left .closed p)

theorem begins (h : Goes l a found b) : a.moves <+: b.moves := by
  induction h with
  | here => exact List.prefix_refl _
  | exceeded _ _ ih => exact ih
  | visited _ _ _ _ ih | opened _ _ ih | advanced _ _ _ ih | left _ _ _ ih =>
    exact ih.trans (List.prefix_append ..)

theorem stillOpen (h : Goes l a found b) (ha : StillOpen a.moves a.inside) :
    StillOpen b.moves b.inside := by
  induction h with
  | here => exact ha
  | visited e o _ _ ih => exact ih.visited e o
  | exceeded _ _ ih => exact ih
  | opened p _ ih => exact ih.opened p
  | advanced p next _ ih => exact ih.advanced p next
  | left how p _ ih => exact ih.left how p

/-- The classes found are those of the moves. -/
theorem found_eq (h : Goes l a found b) :
    b.moves.filterMap Move.found? = a.moves.filterMap Move.found? ++ found := by
  induction h with
  | here => simp
  | visited e o _ _ ih => cases o <;> simp [ih, Move.found?]
  | exceeded _ _ ih => exact ih
  | opened _ _ ih | advanced _ _ _ ih | left _ _ _ ih =>
    simpa [List.filterMap_cons, Move.found?] using ih

theorem seen_le (h : Goes l a found b) : a.seen ≤ b.seen := by
  induction h with
  | here => exact Nat.le_refl _
  | visited _ _ _ _ ih | exceeded _ _ ih => exact Nat.le_succ_of_le ih
  | opened _ _ ih | advanced _ _ _ ih | left _ _ _ ih => exact ih

/-- The entries seen are those visited, and the one that exceeded the budget. -/
theorem seen_eq (h : Goes l a found b) :
    b.seen + visits a.moves =
      a.seen + visits b.moves + if a.seen ≤ l.budget ∧ l.budget < b.seen then 1 else 0 := by
  induction h with
  | here => rw [if_neg (by omega), Nat.add_zero]
  | @visited found b e o h hb ih =>
    have hle := h.seen_le
    rw [if_neg (by omega)] at ih
    rw [if_neg (by simp only; omega)]
    simp only [visits, List.countP_append, List.countP_singleton, Move.isVisit, if_true] at ih ⊢
    omega
  | @exceeded found b h hb ih =>
    have hle := h.seen_le
    rw [if_neg (by omega)] at ih
    rw [if_pos (by simp only; omega)]
    simp only
    omega
  | opened _ _ ih | advanced _ _ _ ih | left _ _ _ ih =>
    simpa [visits, Move.isVisit] using ih

end Goes

/-! ## Steps with moves kept -/

section Steps

variable (d : Decoder world entry container position) (l : Limits)
variable {s : State (world × List (Move entry position)) entry position}

theorem moves_closeAll (s : State (world × List (Move entry position)) entry position) :
    (s.closeAll d.tracked).world.2 = s.world.2 ++ (s.frames.map Prod.fst).map (.left .closed) := by
  have hclose : ∀ (frames : List (position × Nat)) (w : world × List (Move entry position)),
      (frames.foldl (fun w f => d.tracked.close f.1 w) w).2 =
        w.2 ++ (frames.map Prod.fst).map (.left .closed) := by
    intro frames
    induction frames with
    | nil => exact fun w => (List.append_nil _).symm
    | cons f frames ih => exact fun w => (ih _).trans (List.append_assoc ..)
  exact hclose ..

theorem goes_closeAll (s : State (world × List (Move entry position)) entry position) :
    Goes l s.progress [] (s.closeAll d.tracked).progress := by
  have hclosed : Goes l s.progress []
      ⟨s.world.2 ++ (s.frames.map Prod.fst).map (.left .closed), [], s.tally.entriesSeen⟩ :=
    Goes.here.closed
  rw [← moves_closeAll d] at hclosed
  exact hclosed

theorem goes_expand (kind : EntryKind) (place : Provenance) (contents : container) (depth : Nat)
    (s : State (world × List (Move entry position)) entry position) :
    Goes l s.progress [] (expand d.tracked l kind place contents depth s).state.progress := by
  unfold expand
  cases l.maxDepth with
  | unsaid => exact goes_closeAll d l s
  | atMost n =>
    simp only
    split
    · exact .here
    · have henter : d.tracked.enter contents s.world =
        keeping Move.ofEnter (d.enter contents) s.world := rfl
      simp only [State.mapTally, henter, keeping]
      cases d.enter contents s.world.1 with
      | ok p w => exact .opened p .here
      | error trouble w =>
        simp only [Move.ofEnter, List.append_nil]
        cases trouble with
        | failed failure => exact .here
        | aborted fault =>
          exact goes_closeAll d l { s with
            world := (w, s.world.2)
            tally := s.tally.debug _ }

/-- A visit is a move unless it exceeds the budget. -/
theorem goes_visit (e : entry) (depth : Nat) (hs : s.tally.entriesSeen ≤ l.budget) :
    let x := visit d.tracked l e depth s
    Goes l s.progress x.found?.toList x.state.progress := by
  intro x
  rcases Nat.lt_or_eq_of_le hs with hb | hb
  · have hdecode : d.tracked.decode e s.world =
      keeping (Move.ofDecode e) (d.decode e) s.world := rfl
    have hvisited : ∀ o, Goes l s.progress o.toList
        ⟨s.world.2 ++ [.visited e o], s.frames.map Prod.fst, s.tally.entriesSeen + 1⟩ :=
      fun o => .visited e o .here hb
    simp only [x, visit_of_decode hb, hdecode, keeping]
    cases d.decode e s.world.1 with
    | ok decoded w =>
      cases decoded with
      | definition o => exact hvisited (some o)
      | unrecognized name => exact hvisited none
      | container kind place contents =>
        simp only [found?_expand]
        exact (hvisited none).trans (goes_expand d l kind place contents depth { s with
          world := (w, s.world.2 ++ [.visited e none])
          tally := s.tally.note .visited })
    | error trouble w =>
      cases trouble with
      | failed failure => exact hvisited none
      | aborted fault =>
        exact (hvisited none).trans (goes_closeAll d l { s with
          world := (w, s.world.2 ++ [.visited e none])
          tally := s.tally.note .visited })
  · have hexceeded : Goes l s.progress [] { s.progress with seen := s.tally.entriesSeen + 1 } :=
      .exceeded .here hb
    simp only [x, visit_of_exceeded (Nat.le_of_eq hb.symm)]
    cases l.maxEntries with
    | atMost n => exact hexceeded
    | unsaid =>
      exact hexceeded.trans (goes_closeAll d l { s with tally := s.tally.note .visited })

variable {d}

theorem Comes.goes {e : entry} {depth : Nat}
    {s₁ : State (world × List (Move entry position)) entry position}
    (h : Comes d.tracked s e depth s₁) : Goes l s.progress [] s₁.progress := by
  cases h with
  | root => exact .here
  | @pulled p next depth frames e w hframes hpull =>
    have hadvanced : Goes l s.progress []
        ⟨s.world.2 ++ [.advanced p next], next :: frames.map Prod.fst, s.tally.entriesSeen⟩ := by
      refine .advanced p next ?_
      rw [State.progress, hframes]
      exact .here
    have hw : w.2 = s.world.2 ++ [.advanced p next] := keeping_eq_ok hpull
    rw [← hw] at hadvanced
    exact hadvanced

theorem goes_left {p : position} {depth : Nat} {frames : List (position × Nat)}
    (hframes : s.frames = (p, depth) :: frames) {how : Leaving}
    {w : world × List (Move entry position)} (hw : w.2 = s.world.2 ++ [.left how p]) :
    Goes l s.progress [] ⟨w.2, frames.map Prod.fst, s.tally.entriesSeen⟩ := by
  rw [hw]
  refine .left how p ?_
  rw [State.progress, hframes]
  exact .here

theorem Idles.goes {x : Next (world × List (Move entry position)) entry position}
    (h : Idles d.tracked s x) : Goes l s.progress x.found?.toList x.state.progress := by
  cases h with
  | ended | unlistable | faulty => exact .here
  | exhausted hframes hpull => exact goes_left l hframes (keeping_eq_ok hpull)
  | failed hframes hpull => exact goes_left l hframes (keeping_eq_error hpull)
  | @aborted p depth frames w fault hframes hpull =>
    exact (goes_left l hframes (keeping_eq_error hpull)).trans
      (goes_closeAll d l { s with world := w, frames })

/-- Every step goes on by moves. -/
theorem goes_step (s : State (world × List (Move entry position)) entry position) :
    let x := step d.tracked l s
    Goes l s.progress x.found?.toList x.state.progress := by
  refine step_elim d.tracked s l (fun _ x hstops => ?_) (fun hx e depth s₁ hcomes => ?_)
    fun _ x hidles => hidles.goes l
  · cases hstops with
    | left | refused => exact goes_closeAll d l s
    | unlistable | faulty | ended => exact .here
  · have hs : s.tally.entriesSeen ≤ l.budget := by simpa [isExhausted] using hx
    exact (hcomes.goes l).trans (goes_visit d l e depth (hcomes.tally_eq ▸ hs))

theorem progress_of_nil (h : s.frames = []) :
    s.progress = ⟨s.world.2, [], s.tally.entriesSeen⟩ := by
  rw [State.progress, h]
  rfl

/-- A walk goes on by moves to its end, where no container is open. -/
theorem goes_occurrences (d : Decoder world entry container position) (wanted : Option Nat)
    (s : State (world × List (Move entry position)) entry position) :
    let r := occurrences d.tracked l wanted s
    Goes l s.progress r.value ⟨r.world.2, [], r.tally.entriesSeen⟩ := by
  induction wanted, s using wanted_induction d.tracked l with
  | zero s =>
    rw [occurrences_zero]
    exact goes_closeAll d l s
  | continues wanted s s' hw h ih =>
    have hnext := goes_step (d := d) l s
    rw [h] at hnext
    rw [occurrences_of_wanted hw, h]
    exact hnext.trans ih
  | found wanted s o s' hw h ih =>
    have hnext := goes_step (d := d) l s
    rw [h] at hnext
    rw [occurrences_of_wanted hw, h]
    exact hnext.trans ih
  | ended wanted s s' hw h =>
    have hnext := goes_step (d := d) l s
    rw [h] at hnext
    rw [occurrences_of_wanted hw, h]
    have hend : Goes l s.progress [] s'.progress := hnext
    rwa [progress_of_nil (frames_of_ended h)] at hend
  | aborted wanted s fault s' hw h =>
    have hnext := goes_step (d := d) l s
    rw [h] at hnext
    rw [occurrences_of_wanted hw, h]
    have hend : Goes l s.progress [] s'.progress := hnext
    rwa [progress_of_nil (frames_of_aborted h)] at hend

end Steps

end JndiScan.Walk
