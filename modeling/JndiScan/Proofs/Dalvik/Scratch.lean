/-
The directories of conversions during a walk. A conversion gives class files only, which are no
containers, so nothing is opened while its directory stands: of the opened containers only the
innermost can be a conversion. So there is never more than one directory, and after a walk, however
it ends, there is none, and the host is what it was; unless directories are nested too deep in the
last one to be removed, which ends the walk.
-/
import JndiScan.Proofs.Dalvik.Recovery
import JndiScan.Proofs.Walk.Stopping

namespace JndiScan

open Dalvik (Free During)
open Dalvik.Conversion (Cleared Narrow)

/-- The place of the Dalvik file whose class files are given, as long as their directory stands. -/
def Position.conversion? : Position → Option Provenance
  | converted place _ => some place
  | archiveStart _ _ | archive _ _ _ _ | dalvikStart _ => none

namespace Walk

open Decoding
open Dalvik.Conversion (converted remove removeFault? reached removeFault?_eq_some_iff)

/-- The Dalvik files on the stack whose directories stand. -/
def conversions (frames : List (Position × Nat)) : List Provenance :=
  frames.filterMap fun f => f.1.conversion?

/-- All containers are archives. -/
def Archives (frames : List (Position × Nat)) : Prop := ∀ f ∈ frames, f.1.isArchive

/-- The containers on the stack of a walk that began with a host, and the session. There are
archives, and at most innermost a Dalvik file: it is not converted yet, or its class files are given
and the host is what its conversion came to. -/
inductive Tidy (D : Decoding) (host : Host) (scratch : List Text) :
    List (Position × Nat) → Session → Prop
  | archives {frames : List (Position × Nat)} {s : Session} :
    Archives frames → At host scratch s → Tidy D host scratch frames s
  | unconverted {e : Entry} {depth : Nat} {frames : List (Position × Nat)} {s : Session} :
    Archives frames → At host scratch s → Tidy D host scratch ((.dalvikStart e, depth) :: frames) s
  | converted {e : Entry} {place : Provenance} {left : List Text} {depth : Nat}
      {frames : List (Position × Nat)} {s : Session} :
    Archives frames → (∀ n ∈ left, EntryKind.ofName n = .classFile) →
    At (stateOf (converted D.readDalvik e host scratch)) scratch s →
    Tidy D host scratch ((.converted place left, depth) :: frames) s

/-- What is left in a session when a walk ends, with a fault or without: the host it began with, or
what the conversion of a Dalvik file came to and cannot be removed. -/
inductive LeftBy (D : Decoding) (host : Host) (scratch : List Text) :
    Option Fault → Session → Prop
  | gone {fault : Option Fault} {s : Session} : At host scratch s → LeftBy D host scratch fault s
  | stays {e : Entry} {s : Session} :
    At (stateOf (converted D.readDalvik e host scratch)) scratch s →
    s.host.canRemove scratch = false →
    LeftBy D host scratch (some (.path (.tooDeep .removing))) s

namespace LeftBy

variable {D : Decoding} {host : Host} {scratch : List Text} {fault : Option Fault} {s : Session}

theorem at_of_none (h : LeftBy D host scratch none s) : At host scratch s := by
  cases h with
  | gone hs => exact hs

/-- Removing the directory of a conversion leaves the host as it was, or a fault is raised. -/
theorem remove (hfree : Free host scratch) {e : Entry}
    (hs : At (stateOf (converted D.readDalvik e host scratch)) scratch s) (fault : Option Fault) :
    LeftBy D host scratch ((removeFault? s).or fault) (Dalvik.Conversion.remove s) := by
  have hduring := Dalvik.Conversion.during_converted hfree D.readDalvik e
  cases hgoes : removeFault? s with
  | none => exact .gone (at_remove hduring hs hgoes)
  | some raised =>
    obtain ⟨hcannot, rfl⟩ := removeFault?_eq_some_iff.1 hgoes
    have hstays : Dalvik.Conversion.remove s = s := if_neg (by simp [hcannot])
    rw [hstays]
    exact .stays hs (hs.2 ▸ hcannot)

/-- The host is what it was, or a directory stands in it that is nested too deep. -/
theorem cleared (hfree : Free host scratch) (h : LeftBy D host scratch fault s) :
    ∃ raised, Cleared host scratch raised s.host ∧
      (raised = none ∨ raised = fault) := by
  cases h with
  | gone hs => exact ⟨none, hs.1 ▸ .gone, .inl rfl⟩
  | @stays e s hs hcannot =>
    have hduring := Dalvik.Conversion.during_converted hfree D.readDalvik e
    have hgoes : removeFault? s = some (.path (.tooDeep .removing)) :=
      removeFault?_eq_some_iff.2 ⟨hs.2.symm ▸ hcannot, rfl⟩
    have hstays : Dalvik.Conversion.remove s = s := if_neg (by simp [hs.2, hcannot])
    obtain ⟨hcleared, -⟩ := Dalvik.Conversion.cleared_remove (hs.1 ▸ hduring) hs.2
    rw [hgoes, hstays] at hcleared
    exact ⟨_, hcleared, .inr rfl⟩

/-- Where the names of classes are not too long nothing stays. -/
theorem at_of_narrow (hfree : Free host scratch) (hremoving : 0 < host.nesting.removing)
    (hnarrow : ∀ bytes cs, D.readDalvik bytes = .ok cs → ∀ c ∈ cs,
      Narrow host host.nesting.removing c.toDefinition)
    (h : LeftBy D host scratch fault s) : At host scratch s := by
  cases h with
  | gone hs => exact hs
  | @stays e s hs hcannot =>
    have hholds : Dalvik.Conversion.HoldsNarrow D.readDalvik e host scratch
        host.nesting.removing := by
      intro ds hds d hd
      obtain ⟨bytes, cs, hread, rfl⟩ := Dalvik.Conversion.contained_eq_ok hds
      obtain ⟨c, hc, rfl⟩ := List.mem_map.1 hd
      exact hnarrow bytes cs hread c hc
    have hcan := (Dalvik.Conversion.nests_converted hfree hremoving hholds).canRemove
      (Nat.le_refl _)
    rw [← hs.1, hcannot] at hcan
    cases hcan

end LeftBy

namespace Tidy

variable {D : Decoding} {host : Host} {scratch : List Text} {frames : List (Position × Nat)}
variable {s s' : Session}

theorem at_of_archives (h : Tidy D host scratch frames s) (harchives : Archives frames) :
    At host scratch s := by
  cases h with
  | archives _ hs | unconverted _ hs => exact hs
  | converted => exact (harchives _ (List.mem_cons_self ..)).elim

/-- Work that keeps the host keeps the rest. -/
theorem of_at (h : Tidy D host scratch frames s) (hat : At s.host s.scratch s') :
    Tidy D host scratch frames s' := by
  cases h with
  | archives harchives hs =>
    rw [hs.1, hs.2] at hat
    exact .archives harchives hat
  | unconverted harchives hs =>
    rw [hs.1, hs.2] at hat
    exact .unconverted harchives hat
  | converted harchives hleft hs =>
    rw [hs.1, hs.2] at hat
    exact .converted harchives hleft hat

/-- Nothing is done to leave archives. -/
theorem close_archives (h : Archives frames) (s : Session) :
    frames.foldl (fun s f => D.decoder.close f.1 s) s = s ∧
      closingFault? D.decoder frames s = none := by
  induction frames with
  | nil => exact ⟨rfl, rfl⟩
  | cons f frames ih =>
    obtain ⟨hf, hframes⟩ := List.forall_mem_cons.1 h
    have hclose : D.decoder.close f.1 s = s ∧ D.decoder.closeFault? f.1 s = none := by
      obtain ⟨p, depth⟩ := f
      cases p with
      | archiveStart | archive => exact ⟨rfl, rfl⟩
      | dalvikStart | converted => cases hf
    rw [List.foldl_cons, closingFault?, hclose.1, hclose.2]
    exact ih hframes

/-- When all containers are left the host is what it was, or a fault is raised. -/
theorem left_close (hfree : Free host scratch) (h : Tidy D host scratch frames s)
    (fault : Option Fault) :
    LeftBy D host scratch ((closingFault? D.decoder frames s).or fault)
      (frames.foldl (fun s f => D.decoder.close f.1 s) s) := by
  cases h with
  | archives harchives hs =>
    rw [(close_archives harchives s).1]
    exact .gone hs
  | unconverted harchives hs =>
    rw [List.foldl_cons, show D.decoder.close (.dalvikStart _) s = s from rfl,
      (close_archives harchives s).1]
    exact .gone hs
  | @converted e place left depth frames s harchives hleft hs =>
    have hclose : D.decoder.close (.converted place left) s = remove s := rfl
    rw [List.foldl_cons, closingFault?, hclose, (close_archives harchives _).1,
      (close_archives harchives _).2, Option.or_none]
    exact .remove hfree hs fault

/-- What leaving all containers raises is that a directory could not be removed. -/
theorem cleared_close (hfree : Free host scratch) (h : Tidy D host scratch frames s) :
    Cleared host scratch (closingFault? D.decoder frames s)
      (frames.foldl (fun s f => D.decoder.close f.1 s) s).host := by
  cases h with
  | archives harchives hs =>
    rw [(close_archives harchives s).1, (close_archives harchives s).2, hs.1]
    exact .gone
  | unconverted harchives hs =>
    rw [List.foldl_cons, closingFault?, show D.decoder.close (.dalvikStart _) s = s from rfl,
      (close_archives harchives s).1, (close_archives harchives s).2, hs.1]
    exact .gone
  | @converted e place left depth frames s harchives hleft hs =>
    have hclose : D.decoder.close (.converted place left) s = remove s := rfl
    have hduring := Dalvik.Conversion.during_converted hfree D.readDalvik e
    rw [List.foldl_cons, closingFault?, hclose, (close_archives harchives _).1,
      (close_archives harchives _).2, Option.or_none]
    exact (Dalvik.Conversion.cleared_remove (hs.1 ▸ hduring) hs.2).1

/-- Only the innermost container can be a conversion. -/
theorem archives_tail (h : Tidy D host scratch frames s) : Archives frames.tail := by
  cases h with
  | archives harchives => exact fun f hf => harchives f (List.mem_of_mem_tail hf)
  | unconverted harchives | converted harchives => exact harchives

theorem conversions_of_archives (h : Archives frames) : conversions frames = [] := by
  refine List.filterMap_eq_nil_iff.2 fun f hf => ?_
  have harchive := h f hf
  cases hp : f.1 with
  | archive | archiveStart => rfl
  | dalvikStart | converted => rw [hp] at harchive; cases harchive

/-- There is at most one directory of a conversion, and else the host is what it was. -/
theorem conversions_cases (hfree : Free host scratch) (h : Tidy D host scratch frames s) :
    (conversions frames = [] ∧ s.host = host) ∨
      ∃ place, conversions frames = [place] ∧ During host scratch s.host := by
  cases h with
  | archives harchives hs => exact .inl ⟨conversions_of_archives harchives, hs.1⟩
  | @unconverted e depth frames s harchives hs =>
    have hskip : conversions ((.dalvikStart e, depth) :: frames) = conversions frames := rfl
    exact .inl ⟨hskip.trans (conversions_of_archives harchives), hs.1⟩
  | @converted e place left depth frames s harchives hleft hs =>
    have hfirst : conversions ((.converted place left, depth) :: frames) =
      place :: conversions frames := rfl
    rw [hfirst, conversions_of_archives harchives, hs.1]
    exact .inr ⟨place, rfl, Dalvik.Conversion.during_converted hfree D.readDalvik e⟩

end Tidy

/-! ## Entries taken from containers -/

section Pull

variable {D : Decoding} {host : Host} {scratch : List Text} {frames : List (Position × Nat)}
variable {s : Session}

/-- The entry can be a container only while all opened containers are archives. -/
def MayNest (frames : List (Position × Nat)) (e : Entry) : Prop :=
  Archives frames ∨ EntryKind.ofName e.name = .classFile

/-- What is left after a position on the stack was asked for the next entry. -/
def Pulled (D : Decoding) (host : Host) (scratch : List Text) (frames : List (Position × Nat))
    (depth : Nat) : EStateM.Result Trouble Session (Option (Entry × Position)) → Prop
  | .ok (some (e, next)) s =>
    Tidy D host scratch ((next, depth) :: frames) s ∧ MayNest ((next, depth) :: frames) e
  | .ok none s | .error (.failed _) s => Archives frames ∧ At host scratch s
  | .error (.aborted fault) s => Archives frames ∧ LeftBy D host scratch (some fault) s

theorem pulled_of_error {trouble : Trouble} (harchives : Archives frames)
    (hs : At host scratch s) (depth : Nat) :
    Pulled D host scratch frames depth (.error trouble s) := by
  cases trouble with
  | failed failure => exact ⟨harchives, hs⟩
  | aborted fault => exact ⟨harchives, .gone hs⟩

theorem pulled_converted (hfree : Free host scratch) (harchives : Archives frames) {e : Entry}
    (hs : At (stateOf (converted D.readDalvik e host scratch)) scratch s) (place : Provenance)
    {left : List Text} (hleft : ∀ n ∈ left, EntryKind.ofName n = .classFile) (depth : Nat) :
    Pulled D host scratch frames depth (D.pull (.converted place left) s) := by
  cases left with
  | nil =>
    have hleft := LeftBy.remove hfree hs none
    cases hgoes : removeFault? s with
    | none =>
      rw [hgoes] at hleft
      rw [pull_converted_nil D place hgoes]
      exact ⟨harchives, hleft.at_of_none⟩
    | some fault =>
      rw [hgoes] at hleft
      rw [pull_converted_nil_of_some D place hgoes]
      exact ⟨harchives, hleft⟩
  | cons name left =>
    exact ⟨.converted harchives (fun n hn => hleft n (List.mem_cons_of_mem _ hn)) hs,
      .inr (hleft name (List.mem_cons_self ..))⟩

theorem pulled_dalvikStart (hfree : Free host scratch) (harchives : Archives frames)
    (hs : At host scratch s) (e : Entry) (depth : Nat) :
    Pulled D host scratch frames depth (D.pull (.dalvikStart e) s) := by
  obtain ⟨rfl, rfl⟩ := hs
  cases hconverted : converted D.readDalvik e s.host s.scratch with
  | error trouble after =>
    have hreached : At (stateOf (converted D.readDalvik e s.host s.scratch)) s.scratch
        (reached s e after) := by
      rw [hconverted]
      exact ⟨rfl, rfl⟩
    rw [pull_dalvikStart_of_error (Dalvik.Conversion.start_of_converted_error hconverted),
      Dalvik.Conversion.troubleAfter]
    have hleft := LeftBy.remove hfree hreached none
    cases hgoes : removeFault? (reached s e after) with
    | none =>
      rw [hgoes] at hleft
      exact pulled_of_error harchives hleft.at_of_none depth
    | some fault =>
      rw [hgoes] at hleft
      exact ⟨harchives, hleft⟩
  | ok found after =>
    obtain ⟨-, hfiles⟩ := during_of_converted hfree hconverted
    have hreached : At (stateOf (converted D.readDalvik e s.host s.scratch)) s.scratch
        (reached s e after) := by
      rw [hconverted]
      exact ⟨rfl, rfl⟩
    rw [pull_dalvikStart (Dalvik.Conversion.start_of_converted hconverted)]
    exact pulled_converted hfree harchives hreached e.place hfiles depth

theorem pulled_archive {p : Position} (hp : p.isArchive) (harchives : Archives frames)
    (hs : At host scratch s) (depth : Nat) :
    Pulled D host scratch frames depth (D.pull p s) := by
  have hkept := (Steady.pull D hp).keeps hs
  cases hpull : D.pull p s with
  | ok pulled s' =>
    rw [hpull] at hkept
    cases pulled with
    | none => exact ⟨harchives, hkept⟩
    | some next =>
      have hnext : Archives ((next.2, depth) :: frames) :=
        List.forall_mem_cons.2 ⟨(place_of_pull hpull).2.2 hp, harchives⟩
      exact ⟨.archives hnext hkept, .inl hnext⟩
  | error trouble s' =>
    rw [hpull] at hkept
    exact pulled_of_error harchives hkept depth

theorem Tidy.pulled (hfree : Free host scratch) {p : Position} {depth : Nat}
    (h : Tidy D host scratch ((p, depth) :: frames) s) :
    Pulled D host scratch frames depth (D.pull p s) := by
  cases h with
  | archives harchives hs =>
    obtain ⟨hp, hframes⟩ := List.forall_mem_cons.1 harchives
    exact pulled_archive hp hframes hs depth
  | unconverted harchives hs => exact pulled_dalvikStart hfree harchives hs _ depth
  | converted harchives hleft hs => exact pulled_converted hfree harchives hs _ hleft depth

end Pull

/-! ## Steps -/

section Steps

variable {D : Decoding} {l : Limits} {host : Host} {scratch : List Text}
variable {s : State Session Entry Position}

/-- The state of a walk that began with a host, with its containers and conversions in order. -/
def State.IsTidy (D : Decoding) (host : Host) (scratch : List Text)
    (s : State Session Entry Position) : Prop :=
  Tidy D host scratch s.frames s.world

/-- What a step leads to: a state in order, or a fault and what is left then. -/
def Next.IsTidy (D : Decoding) (host : Host) (scratch : List Text) :
    Next Session Entry Position → Prop
  | continues s | found _ s | ended s => s.IsTidy D host scratch
  | aborted fault s => LeftBy D host scratch (some fault) s.world

theorem isTidy_abort (hfree : Free host scratch) (h : s.IsTidy D host scratch) (fault : Fault) :
    (abort D.decoder fault s).IsTidy D host scratch := by
  have hleft := Tidy.left_close hfree h (some fault)
  rw [Option.or_some] at hleft
  exact hleft

theorem isTidy_leave (hfree : Free host scratch) (h : s.IsTidy D host scratch) :
    (leave D.decoder s).IsTidy D host scratch := by
  have hleft := Tidy.left_close hfree h none
  rw [Option.or_none] at hleft
  unfold leave
  split
  · next hnone =>
    rw [show closingFault? D.decoder s.frames s.world = none from hnone] at hleft
    exact .archives (List.forall_mem_nil _) hleft.at_of_none
  · next fault hsome =>
    rw [show closingFault? D.decoder s.frames s.world = some fault from hsome] at hleft
    exact hleft

theorem isTidy_expand (hfree : Free host scratch) (h : s.IsTidy D host scratch)
    (harchives : Archives s.frames) (kind : EntryKind) (place : Provenance)
    (contents : Container) (depth : Nat) :
    (expand D.decoder l kind place contents depth s).IsTidy D host scratch := by
  unfold expand
  cases l.maxDepth with
  | unsaid => exact isTidy_abort hfree h _
  | atMost n =>
    simp only
    split
    · exact h
    · have hs := Tidy.at_of_archives h harchives
      have hkept := (Steady.enter D contents).keeps hs
      have henter : D.decoder.enter contents s.world = D.enter contents s.world := rfl
      simp only [State.mapTally, henter]
      cases hentered : D.enter contents s.world with
      | ok p w =>
        rw [hentered] at hkept
        rcases position_of_enter hentered with hp | ⟨e, rfl⟩
        · exact .archives (List.forall_mem_cons.2 ⟨hp, harchives⟩) hkept
        · exact .unconverted harchives hkept
      | error trouble w =>
        rw [hentered] at hkept
        have hw : Tidy D host scratch s.frames w := .archives harchives hkept
        cases trouble with
        | failed failure => exact hw
        | aborted fault => exact isTidy_abort (s := { s with world := w, tally := _ }) hfree hw fault

/-- A container is opened only where all others are archives. -/
theorem isTidy_visit (hfree : Free host scratch) (h : s.IsTidy D host scratch) {e : Entry}
    (hnest : MayNest s.frames e) (depth : Nat) :
    (visit D.decoder l e depth s).IsTidy D host scratch := by
  by_cases hb : s.tally.entriesSeen < l.budget
  · have hkept := (Steady.decode D e).keeps (show At s.world.host s.world.scratch s.world from
      ⟨rfl, rfl⟩)
    have hdecode : D.decoder.decode e s.world = D.decode e s.world := rfl
    rw [visit_of_decode hb, hdecode]
    cases hdecoded : D.decode e s.world with
    | ok decoded w =>
      rw [hdecoded] at hkept
      have hw : Tidy D host scratch s.frames w := Tidy.of_at h hkept
      cases decoded with
      | definition o => exact hw
      | unrecognized name => exact hw
      | container kind place contents =>
        rcases hnest with harchives | hclass
        · exact isTidy_expand (s := { s with world := w, tally := s.tally.note .visited }) hfree hw
            harchives kind place contents depth
        · obtain ⟨o, ho⟩ := definition_of_classFile hclass hdecoded
          cases ho
    | error trouble w =>
      rw [hdecoded] at hkept
      have hw : Tidy D host scratch s.frames w := Tidy.of_at h hkept
      cases trouble with
      | failed failure => exact hw
      | aborted fault => exact isTidy_abort (s := { s with world := w, tally := _ }) hfree hw fault
  · rw [visit_of_exceeded (Nat.not_lt.1 hb)]
    cases l.maxEntries with
    | unsaid => exact isTidy_abort (s := { s with tally := _ }) hfree h _
    | atMost n => exact h

theorem Comes.isTidy (hfree : Free host scratch) (h : s.IsTidy D host scratch) {e : Entry}
    {depth : Nat} {s₁ : State Session Entry Position} (hcomes : Comes D.decoder s e depth s₁) :
    s₁.IsTidy D host scratch ∧ MayNest s₁.frames e := by
  cases hcomes with
  | root hframes =>
    refine ⟨h, .inl ?_⟩
    rw [hframes]
    exact List.forall_mem_nil _
  | @pulled p next depth frames e w hframes hpull =>
    have hpulled : Pulled D host scratch frames depth (D.pull p s.world) :=
      Tidy.pulled hfree (hframes ▸ h)
    rw [show D.pull p s.world = _ from hpull] at hpulled
    exact hpulled

/-- With no container open the host is what it was. -/
theorem State.IsTidy.at_of_nil (h : s.IsTidy D host scratch) (hframes : s.frames = []) :
    At host scratch s.world := by
  refine Tidy.at_of_archives h ?_
  rw [hframes]
  exact List.forall_mem_nil _

theorem Idles.isTidy (hfree : Free host scratch) (h : s.IsTidy D host scratch)
    {x : Next Session Entry Position} (hidles : Idles D.decoder s x) :
    x.IsTidy D host scratch := by
  have hpulled : ∀ p depth frames, s.frames = (p, depth) :: frames →
      Pulled D host scratch frames depth (D.decoder.pull p s.world) := fun p depth frames hframes =>
    Tidy.pulled hfree (hframes ▸ h)
  cases hidles with
  | ended | unlistable => exact h
  | faulty hframes => exact .gone (h.at_of_nil hframes)
  | exhausted hframes hpull | failed hframes hpull =>
    have hleft := hpulled _ _ _ hframes
    rw [hpull] at hleft
    exact .archives hleft.1 hleft.2
  | @aborted p depth frames w fault hframes hpull =>
    obtain ⟨harchives, hleft⟩ := hpull ▸ hpulled p depth frames hframes
    -- The containers that are left are archives, which raise nothing.
    obtain ⟨hsame, hnone⟩ := Tidy.close_archives (D := D) harchives w
    rw [abort, State.leavingFault?, hnone]
    show LeftBy D host scratch (some fault) (frames.foldl (fun s f => D.decoder.close f.1 s) w)
    rwa [hsame]

/-- Every step keeps containers and conversions in order, or a fault tells what is left. -/
theorem isTidy_step (hfree : Free host scratch) (h : s.IsTidy D host scratch) :
    (step D.decoder l s).IsTidy D host scratch := by
  refine step_elim D.decoder s l (fun _ x hstops => ?_) (fun _ e depth s₁ hcomes => ?_)
    fun _ x hidles => hidles.isTidy hfree h
  · have hleave := isTidy_leave hfree h
    cases hstops with
    | left _ hnone => rwa [leave, hnone] at hleave
    | refused _ hsome => rwa [leave, hsome] at hleave
    | faulty hframes => exact .gone (h.at_of_nil hframes)
    | unlistable | ended => exact h
  · obtain ⟨hs₁, hnest⟩ := hcomes.isTidy hfree h
    exact isTidy_visit hfree hs₁ hnest depth

theorem isTidy_of_step (hfree : Free host scratch) (h : s.IsTidy D host scratch)
    {r : Next Session Entry Position} (hstep : step D.decoder l s = r) :
    r.IsTidy D host scratch :=
  hstep ▸ isTidy_step hfree h

theorem State.IsTidy.through (hfree : Free host scratch) (h : s.IsTidy D host scratch)
    {s' : State Session Entry Position} (hthrough : GoesThrough D.decoder l s s') :
    s'.IsTidy D host scratch := by
  induction hthrough with
  | start => exact h
  | continues _ hstep ih | found _ hstep ih =>
    have hnext := isTidy_of_step hfree ih hstep
    exact hnext

/-- However a walk ends, its host is what it was, or its fault tells what stays. -/
theorem left_occurrences (hfree : Free host scratch) (h : s.IsTidy D host scratch)
    (wanted : Option Nat) :
    LeftBy D host scratch (occurrences D.decoder l wanted s).fault
      (occurrences D.decoder l wanted s).world := by
  induction wanted, s using wanted_induction D.decoder l with
  | zero s =>
    have hleft := Tidy.left_close hfree h none
    rw [Option.or_none] at hleft
    rw [occurrences_zero]
    exact hleft
  | continues wanted s s' hw hstep ih =>
    have hnext := isTidy_of_step hfree h hstep
    rw [occurrences_of_wanted hw, hstep]
    exact ih hnext
  | found wanted s o s' hw hstep ih =>
    have hnext := isTidy_of_step hfree h hstep
    rw [occurrences_of_wanted hw, hstep]
    exact ih hnext
  | ended wanted s s' hw hstep =>
    have hnext := isTidy_of_step hfree h hstep
    have hframes := frames_of_ended hstep
    rw [occurrences_of_wanted hw, hstep]
    exact .gone (State.IsTidy.at_of_nil hnext hframes)
  | aborted wanted s fault s' hw hstep =>
    have hnext := isTidy_of_step hfree h hstep
    rw [occurrences_of_wanted hw, hstep]
    exact hnext

/-- A walk that is left after some of its occurrences leaves nothing but a directory that cannot be
removed, and then this is its fault. -/
theorem cleared_occurrences (hfree : Free host scratch) (h : s.IsTidy D host scratch) {k : Nat}
    (hk : k ≤ (occurrences D.decoder l none s).value.length) :
    Cleared host scratch (occurrences D.decoder l (some k) s).fault
      (occurrences D.decoder l (some k) s).world.host := by
  have hleft : ∀ s, s.IsTidy D host scratch → Cleared host scratch
      (occurrences D.decoder l (some 0) s).fault
      (occurrences D.decoder l (some 0) s).world.host := fun s h => by
    rw [occurrences_zero]
    exact Tidy.cleared_close hfree h
  induction s using walk_induction D.decoder l generalizing k with
  | continues s s' hstep ih =>
    have hnext := isTidy_of_step hfree h hstep
    rw [occurrences_eq_step, hstep] at hk
    cases k with
    | zero => exact hleft s h
    | succ k =>
      rw [occurrences_of_wanted (by simp), hstep]
      exact ih hnext hk
  | found s o s' hstep ih =>
    have hnext := isTidy_of_step hfree h hstep
    rw [occurrences_eq_step, hstep] at hk
    cases k with
    | zero => exact hleft s h
    | succ k =>
      rw [occurrences_of_wanted (by simp), hstep]
      exact ih hnext (Nat.le_of_succ_le_succ hk)
  | ended s s' hstep | aborted s fault s' hstep =>
    rw [occurrences_eq_step, hstep] at hk
    obtain rfl : k = 0 := Nat.le_zero.1 hk
    exact hleft s h

end Steps

/-! ## Whatever stops a walk -/

open Dalvik.Conversion in
theorem narrow_twoClasses (bytes : Bytes) (cs : List Dalvik.RawClass)
    (hread : (decodingOf [.ofDefinition (bare "Z"), guardedRendering]).readDalvik bytes = .ok cs) :
    ∀ c ∈ cs, Narrow emptyHost.host emptyHost.host.nesting.removing c.toDefinition := by
  obtain rfl : cs = [.ofDefinition (bare "Z"), guardedRendering] := by cases hread; rfl
  intro c hc
  have hd : c.toDefinition ∈ [bare "Z", guarded] := by
    rw [← Dalvik.map_toDefinition_of_renders rendered_twoClasses.renders rendered_twoClasses.exact]
    exact List.mem_map_of_mem hc
  rcases List.mem_pair.1 hd with heq | heq <;> rw [heq]
  · exact narrow_of_slash_not_mem (by decide) (by decide) (by decide)
  · exact narrow_of_slash_not_mem (by decide) (by decide) (by decide)

/-- With the budget exceeded within a conversion whose directory cannot be removed, the walk ends
with the fault of that, and its session stays as it is. -/
theorem step_of_stuck {D : Decoding} {l : Limits} {s : State Session Entry Position}
    {place : Provenance} {left : List Text} {depth : Nat} {fault : Fault}
    (hframes : s.frames = [(.converted place left, depth)])
    (hexceeded : l.budget < s.tally.entriesSeen) (hstays : removeFault? s.world = some fault) :
    step D.decoder l s = .aborted fault { s with frames := [] } := by
  have hx : isExhausted l s.tally = true := decide_eq_true hexceeded
  have hfault : D.decoder.closeFault? (.converted place left) s.world = some fault := hstays
  have hleaving : s.leavingFault? D.decoder = some fault := by
    rw [State.leavingFault?, hframes, closingFault?, hfault]
    rfl
  have hworld : D.decoder.close (.converted place left) s.world = s.world :=
    if_neg (by simp [(removeFault?_eq_some_iff.1 hstays).1])
  have hclosed : s.closeAll D.decoder = { s with frames := [] } := by
    rw [State.closeAll, hframes, List.foldl_cons, List.foldl_nil, hworld]
  rw [step, hframes]
  simp only [hx, if_true, leave, hleaving, hclosed]

end Walk

end JndiScan
