/-
Two walks side by side. Where two decoders do alike in worlds that are related, whatever the
relation tells, their walks meet the same and end in worlds that are related.
-/
import JndiScan.Proofs.Effect
import JndiScan.Proofs.Walk.Runs

namespace JndiScan.Walk

variable {world world' entry container position : Type}

/-- In related worlds both decoders do alike. The properties are those of the containers that entries
turn out to be, and of the positions that are come to in them. -/
structure Decoder.Related (R : world → world' → Prop) (Sound : container → Prop)
    (Fine : position → Prop) (d : Decoder world entry container position)
    (d' : Decoder world' entry container position) : Prop where
  placeOf : ∀ e, d'.placeOf e = d.placeOf e
  decode : ∀ e {w w'}, R w w' →
    Alike R (fun x => ∀ kind place c, x = .container kind place c → Sound c)
      (d.decode e w) (d'.decode e w')
  enter : ∀ {c w w'}, Sound c → R w w' → Alike R Fine (d.enter c w) (d'.enter c w')
  pull : ∀ {p w w'}, Fine p → R w w' →
    Alike R (fun next => ∀ x ∈ next, Fine x.2) (d.pull p w) (d'.pull p w')
  close : ∀ {p w w'}, Fine p → R w w' → R (d.close p w) (d'.close p w')
  closeFault? : ∀ {p w w'}, Fine p → R w w' → d'.closeFault? p w' = d.closeFault? p w

/-- States that differ in their worlds alone, which are related. -/
structure State.Related (R : world → world' → Prop) (Fine : position → Prop)
    (s : State world entry position) (s' : State world' entry position) : Prop where
  world : R s.world s'.world
  tally : s'.tally = s.tally
  frames : s'.frames = s.frames
  roots : s'.roots = s.roots
  fine : ∀ f ∈ s.frames, Fine f.1

/-- Steps that lead to the same, in related states. -/
inductive Next.Related (R : world → world' → Prop) (Fine : position → Prop) :
    Next world entry position → Next world' entry position → Prop
  | continues {s : State world entry position} {s' : State world' entry position} :
    s.Related R Fine s' → Related R Fine (.continues s) (.continues s')
  | found {o : Occurrence} {s : State world entry position} {s' : State world' entry position} :
    s.Related R Fine s' → Related R Fine (.found o s) (.found o s')
  | ended {s : State world entry position} {s' : State world' entry position} :
    s.Related R Fine s' → Related R Fine (.ended s) (.ended s')
  | aborted {fault : Fault} {s : State world entry position} {s' : State world' entry position} :
    s.Related R Fine s' → Related R Fine (.aborted fault s) (.aborted fault s')

section Steps

variable {R : world → world' → Prop} {Sound : container → Prop} {Fine : position → Prop}
variable {l : Limits}
variable {d : Decoder world entry container position}
variable {d' : Decoder world' entry container position}
variable {s : State world entry position} {s' : State world' entry position}

theorem related_foldl_close (h : d.Related R Sound Fine d') {frames : List (position × Nat)}
    (hfine : ∀ f ∈ frames, Fine f.1) {w : world} {w' : world'} (hw : R w w') :
    R (frames.foldl (fun w f => d.close f.1 w) w)
      (frames.foldl (fun w f => d'.close f.1 w) w') := by
  induction frames generalizing w w' with
  | nil => exact hw
  | cons f frames ih =>
    obtain ⟨hf, hframes⟩ := List.forall_mem_cons.1 hfine
    exact ih hframes (h.close hf hw)

theorem related_closingFault? (h : d.Related R Sound Fine d') {frames : List (position × Nat)}
    (hfine : ∀ f ∈ frames, Fine f.1) {w : world} {w' : world'} (hw : R w w') :
    closingFault? d' frames w' = closingFault? d frames w := by
  induction frames generalizing w w' with
  | nil => rfl
  | cons f frames ih =>
    obtain ⟨hf, hframes⟩ := List.forall_mem_cons.1 hfine
    rw [closingFault?, closingFault?, h.closeFault? hf hw, ih hframes (h.close hf hw)]

theorem State.Related.leavingFault? (h : d.Related R Sound Fine d') (hs : s.Related R Fine s') :
    s'.leavingFault? d' = s.leavingFault? d := by
  rw [State.leavingFault?, State.leavingFault?, hs.frames]
  exact related_closingFault? h hs.fine hs.world

theorem State.Related.closeAll (h : d.Related R Sound Fine d') (hs : s.Related R Fine s') :
    (s.closeAll d).Related R Fine (s'.closeAll d') where
  world := by
    have hclosed := related_foldl_close h hs.fine hs.world
    simp only [State.closeAll, hs.frames]
    exact hclosed
  tally := hs.tally
  frames := rfl
  roots := hs.roots
  fine := List.forall_mem_nil _

theorem State.Related.mapTally (hs : s.Related R Fine s') (f : Tally → Tally) :
    (s.mapTally f).Related R Fine (s'.mapTally f) :=
  { hs with tally := congrArg f hs.tally }

theorem State.Related.setWorld (hs : s.Related R Fine s') {w : world} {w' : world'}
    (hw : R w w') : State.Related R Fine { s with world := w } { s' with world := w' } :=
  { hs with world := hw }

/-- Another stack of containers, the same on both sides. -/
theorem State.Related.setFrames (hs : s.Related R Fine s') {frames : List (position × Nat)}
    (hfine : ∀ f ∈ frames, Fine f.1) :
    State.Related R Fine { s with frames } { s' with frames } :=
  { hs with frames := rfl, fine := hfine }

theorem State.Related.setRoots (hs : s.Related R Fine s') (roots : List (Root entry)) :
    State.Related R Fine { s with roots } { s' with roots } :=
  { hs with roots := rfl }

theorem related_abort (h : d.Related R Sound Fine d') (hs : s.Related R Fine s') (fault : Fault) :
    Next.Related R Fine (abort d fault s) (abort d' fault s') := by
  rw [abort, abort, hs.leavingFault? h]
  exact .aborted (hs.closeAll h)

theorem related_leave (h : d.Related R Sound Fine d') (hs : s.Related R Fine s') :
    Next.Related R Fine (leave d s) (leave d' s') := by
  rw [leave, leave, hs.leavingFault? h]
  split
  · exact .continues (hs.closeAll h)
  · exact .aborted (hs.closeAll h)

theorem related_expand (h : d.Related R Sound Fine d') (hs : s.Related R Fine s') (kind : EntryKind)
    (place : Provenance) {contents : container} (hsound : Sound contents) (depth : Nat) :
    Next.Related R Fine (expand d l kind place contents depth s)
      (expand d' l kind place contents depth s') := by
  unfold expand
  cases l.maxDepth with
  | unsaid => exact related_abort h hs _
  | atMost n =>
    simp only
    split
    · exact .continues (hs.mapTally _)
    · have hentered := h.enter hsound hs.world
      simp only [State.mapTally]
      generalize d.enter contents s.world = r, d'.enter contents s'.world = r' at hentered
      have hopened := hs.mapTally
        (·.debug ("container open kind=" ++ kind.label ++ " entry=" ++ place.text))
      cases hentered with
      | @ok p w w' hp hw =>
        have hall : ∀ f ∈ (p, depth + 1) :: s.frames, Fine f.1 :=
          List.forall_mem_cons.2 ⟨hp, hs.fine⟩
        simp only [hs.frames]
        exact .continues ((hopened.setWorld hw).setFrames hall)
      | @error trouble w w' hw =>
        cases trouble with
        | failed failure =>
          exact .continues ((hopened.setWorld hw).mapTally (·.addFailure place.text failure))
        | aborted fault => exact related_abort h (hopened.setWorld hw) fault

theorem related_visit (h : d.Related R Sound Fine d') (hs : s.Related R Fine s') (e : entry)
    (depth : Nat) : Next.Related R Fine (visit d l e depth s) (visit d' l e depth s') := by
  have hvisited := hs.mapTally fun t => { t with entriesSeen := t.entriesSeen + 1 }
  have hx : isExhausted l (s'.mapTally fun t => { t with entriesSeen := t.entriesSeen + 1 }).tally =
      isExhausted l (s.mapTally fun t => { t with entriesSeen := t.entriesSeen + 1 }).tally := by
    rw [hvisited.tally]
  unfold visit
  simp only [hx, h.placeOf]
  split
  · cases l.maxEntries with
    | unsaid => exact related_abort h hvisited _
    | atMost n => exact .continues (hvisited.mapTally _)
  · have hdecoded := h.decode e hvisited.world
    generalize d.decode e (s.mapTally _).world = r, d'.decode e (s'.mapTally _).world = r'
      at hdecoded
    cases hdecoded with
    | @ok decoded w w' hsound hw =>
      cases decoded with
      | definition o => exact .found (hvisited.setWorld hw)
      | container kind place contents =>
        exact related_expand h (hvisited.setWorld hw) kind place (hsound _ _ _ rfl) depth
      | unrecognized name => exact .continues ((hvisited.setWorld hw).mapTally _)
    | @error trouble w w' hw =>
      cases trouble with
      | failed failure => exact .continues ((hvisited.setWorld hw).mapTally _)
      | aborted fault => exact related_abort h (hvisited.setWorld hw) fault

/-- Related states go on alike. -/
theorem related_step (h : d.Related R Sound Fine d') (hs : s.Related R Fine s') :
    Next.Related R Fine (step d l s) (step d' l s') := by
  obtain ⟨w, tally, frames, roots⟩ := s
  obtain ⟨w', tally', frames', roots'⟩ := s'
  obtain ⟨hw, htally, hframes, hroots, hfine⟩ := hs
  simp only at hw htally hframes hroots hfine
  subst htally hframes hroots
  have hs : State.Related R Fine (⟨w, tally', frames', roots'⟩ : State world entry position)
      ⟨w', tally', frames', roots'⟩ := ⟨hw, rfl, rfl, rfl, hfine⟩
  unfold step
  cases frames' with
  | nil =>
    cases roots' with
    | nil => exact .ended hs
    | cons root roots =>
      cases root with
      | unlistable failure => exact .continues ((hs.setRoots roots).mapTally _)
      | faulty fault => exact .aborted hs
      | entry e =>
        simp only
        split
        · exact .ended (hs.setRoots [])
        · exact related_visit h (hs.setRoots roots) e 0
  | cons frame frames =>
    obtain ⟨p, depth⟩ := frame
    obtain ⟨hp, hframes⟩ := List.forall_mem_cons.1 hfine
    have hpulled := h.pull hp hw
    simp only
    split
    · exact related_leave h hs
    · generalize d.pull p w = r, d'.pull p w' = r' at hpulled
      cases hpulled with
      | @ok next w w' hnext hw =>
        cases next with
        | none => exact .continues ((hs.setWorld hw).setFrames hframes)
        | some next =>
          obtain ⟨e, p⟩ := next
          have hall : ∀ f ∈ (p, depth) :: frames, Fine f.1 :=
            List.forall_mem_cons.2 ⟨hnext _ rfl, hframes⟩
          exact related_visit h ((hs.setWorld hw).setFrames hall) e depth
      | @error trouble w w' hw =>
        cases trouble with
        | failed failure => exact .continues (((hs.setWorld hw).setFrames hframes).mapTally _)
        | aborted fault => exact related_abort h ((hs.setWorld hw).setFrames hframes) fault

end Steps

/-! ## Whole walks -/

/-- Ends of walks that differ in their worlds alone, which are related. -/
structure Outcome.Related (R : world → world' → Prop) (r : Outcome α world)
    (r' : Outcome α world') : Prop where
  value : r'.value = r.value
  tally : r'.tally = r.tally
  fault : r'.fault = r.fault
  world : R r.world r'.world

section Walks

variable {R : world → world' → Prop} {Sound : container → Prop} {Fine : position → Prop}
variable {l : Limits}
variable {d : Decoder world entry container position}
variable {d' : Decoder world' entry container position}
variable {s : State world entry position} {s' : State world' entry position}

theorem State.Related.outcome (hs : s.Related R Fine s') (value : α) (fault : Option Fault) :
    (s.outcome value fault).Related R (s'.outcome value fault) :=
  ⟨rfl, hs.tally, rfl, hs.world⟩

/-- Walks from related states meet the same and end in related worlds, whichever part of them is
wanted. -/
theorem related_occurrences (h : d.Related R Sound Fine d') (wanted : Option Nat)
    (hs : s.Related R Fine s') :
    (occurrences d l wanted s).Related R (occurrences d' l wanted s') := by
  induction wanted, s using wanted_induction d l generalizing s' with
  | zero s =>
    rw [occurrences_zero, occurrences_zero, hs.leavingFault? h]
    exact (hs.closeAll h).outcome [] _
  | continues wanted s s₁ hw hstep ih =>
    have hnext := related_step (l := l) h hs
    rw [occurrences_of_wanted hw, occurrences_of_wanted hw]
    rw [hstep] at hnext ⊢
    generalize step d' l s' = next at hnext
    cases hnext with
    | continues hs₁ => exact ih hs₁
  | found wanted s o s₁ hw hstep ih =>
    have hnext := related_step (l := l) h hs
    rw [occurrences_of_wanted hw, occurrences_of_wanted hw]
    rw [hstep] at hnext ⊢
    generalize step d' l s' = next at hnext
    cases hnext with
    | found hs₁ => exact { ih hs₁ with value := congrArg (o :: ·) (ih hs₁).value }
  | ended wanted s s₁ hw hstep =>
    have hnext := related_step (l := l) h hs
    rw [occurrences_of_wanted hw, occurrences_of_wanted hw]
    rw [hstep] at hnext ⊢
    generalize step d' l s' = next at hnext
    cases hnext with
    | ended hs₁ => exact hs₁.outcome [] none
  | aborted wanted s fault s₁ hw hstep =>
    have hnext := related_step (l := l) h hs
    rw [occurrences_of_wanted hw, occurrences_of_wanted hw]
    rw [hstep] at hnext ⊢
    generalize step d' l s' = next at hnext
    cases hnext with
    | aborted hs₁ => exact hs₁.outcome [] (some fault)

end Walks

end JndiScan.Walk
