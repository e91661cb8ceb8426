/-
What walks through files rely on. The entries of a container lie in it, and what an entry turns out
to be depends on the host alone, which decoding leaves as it is. Only a conversion changes the host,
and it undoes the change: while its class files are read the host holds its directory, and before
and after it the host is the same.
-/
import JndiScan.Proofs.Container
import JndiScan.Proofs.Dalvik.Directory
import JndiScan.Proofs.Walk.Steady

namespace JndiScan

open Dalvik (Free During)
open Dalvik.Conversion (cleared_remove converted converted_eq_ok during_converted entry mem_names
  ofName_fileName reached remove removeFault? start start_of_converted start_of_converted_error
  troubleAfter troubleAfter_eq_failed_iff writeClasses_during)
open Walk (Delivers Forest Fails Gives Is Nesting Unfolds UnfoldsAll Yields)

/-- Is the position in an archive? -/
def Position.isArchive : Position → Prop
  | archiveStart _ _ | archive _ _ _ _ => True
  | dalvikStart _ | converted _ _ => False

/-- The host of a session and its place for conversions. -/
def At (host : Host) (scratch : List Text) (s : Session) : Prop :=
  s.host = host ∧ s.scratch = scratch

/-- Work that leaves the host as it is, and whose result depends on it alone. -/
def Steady (host : Host) (scratch : List Text) (work : Work α) : Prop :=
  (∃ x, Yields (At host scratch) (At host scratch) work x) ∨
    ∃ trouble, ∀ s, At host scratch s → ∃ s', work s = .error trouble s' ∧ At host scratch s'

namespace Steady

variable {host : Host} {scratch : List Text} {work : Work α}

theorem pure (x : α) : Steady host scratch (pure x : Work α) :=
  .inl ⟨x, fun s hs => ⟨s, rfl, hs⟩⟩

theorem throw (trouble : Trouble) : Steady host scratch (throw trouble : Work α) :=
  .inr ⟨trouble, fun s hs => ⟨s, rfl, hs⟩⟩

theorem bind (h : Steady host scratch work) {f : α → Work β}
    (hf : ∀ x, Steady host scratch (f x)) : Steady host scratch (work >>= f) := by
  rcases h with ⟨x, hx⟩ | ⟨trouble, ht⟩
  · rcases hf x with ⟨y, hy⟩ | ⟨trouble, ht⟩
    · refine .inl ⟨y, fun s hs => ?_⟩
      obtain ⟨s₁, hwork, hs₁⟩ := hx s hs
      rw [work_bind_apply, hwork]
      exact hy s₁ hs₁
    · refine .inr ⟨trouble, fun s hs => ?_⟩
      obtain ⟨s₁, hwork, hs₁⟩ := hx s hs
      rw [work_bind_apply, hwork]
      exact ht s₁ hs₁
  · refine .inr ⟨trouble, fun s hs => ?_⟩
    obtain ⟨s₁, hwork, hs₁⟩ := ht s hs
    rw [work_bind_apply, hwork]
    exact ⟨s₁, rfl, hs₁⟩

/-- What steady work gives once it gives always. -/
theorem yields (h : Steady host scratch work) {s s' : Session} (hs : At host scratch s) {x : α}
    (hwork : work s = .ok x s') :
    Yields (At host scratch) (At host scratch) work x ∧ At host scratch s' := by
  rcases h with ⟨y, hy⟩ | ⟨trouble, ht⟩
  · obtain ⟨s₁, heq, hs₁⟩ := hy s hs
    rw [hwork] at heq
    cases heq
    exact ⟨hy, hs₁⟩
  · obtain ⟨s₁, heq, -⟩ := ht s hs
    rw [hwork] at heq
    cases heq

theorem fails (h : Steady host scratch work) {s s' : Session} (hs : At host scratch s)
    {failure : Failure} (hwork : work s = .error (.failed failure) s') :
    Fails (At host scratch) (At host scratch) work failure ∧ At host scratch s' := by
  rcases h with ⟨y, hy⟩ | ⟨trouble, ht⟩
  · obtain ⟨s₁, heq, -⟩ := hy s hs
    rw [hwork] at heq
    cases heq
  · obtain ⟨s₁, heq, hs₁⟩ := ht s hs
    rw [hwork] at heq
    cases heq
    exact ⟨ht, hs₁⟩

theorem keeps (h : Steady host scratch work) {s : Session} (hs : At host scratch s) :
    At host scratch (stateOf (work s)) := by
  rcases h with ⟨y, hy⟩ | ⟨trouble, ht⟩
  · obtain ⟨s₁, heq, hs₁⟩ := hy s hs
    rwa [heq]
  · obtain ⟨s₁, heq, hs₁⟩ := ht s hs
    rwa [heq]

/-! ### Entries -/

theorem need (e : Entry) : Steady host scratch e.need := by
  cases hcontent : e.content host with
  | ok bytes =>
    refine .inl ⟨bytes, fun s hs => ⟨{ s with opened := e.place :: s.opened }, ?_, hs⟩⟩
    rw [Entry.need, Entry.read, hs.1, hcontent]
  | error fault =>
    refine .inr ⟨.ofOpening e.place fault, fun s hs =>
      ⟨{ s with opened := e.place :: s.opened }, ?_, hs⟩⟩
    rw [Entry.need, Entry.read, hs.1, hcontent]

theorem composed : Decoding.Composed (Steady host scratch) where
  pure x := pure x
  throw trouble := throw trouble
  bind h hf := bind h hf
  need := need

theorem decode (D : Decoding) (e : Entry) : Steady host scratch (D.decode e) :=
  composed.decode D e

theorem enter (D : Decoding) (c : Container) : Steady host scratch (D.enter c) :=
  composed.enter D c

theorem pull (D : Decoding) {p : Position} (hp : p.isArchive) :
    Steady host scratch (D.pull p) := by
  cases p with
  | archive source place only left => exact composed.pullMember D source place only left
  | archiveStart e only => exact composed.pull_archiveStart D e only
  | dalvikStart e => exact hp.elim
  | converted place left => exact hp.elim

end Steady

/-! ## Where containers lie -/

namespace Decoding

/-- The place of a container. -/
def placeOfContainer : Container → Provenance
  | .archive e _ | .dalvik e => e.place

/-- The place of the container that a position is in. -/
def placeOfPosition : Position → Provenance
  | .archiveStart e _ | .dalvikStart e => e.place
  | .archive _ place _ _ | .converted place _ => place

section Places

variable {D : Decoding} {e : Entry} {s s' : Session}

theorem place_of_decode {o : Occurrence} (h : D.decode e s = .ok (.definition o) s') :
    o.place = e.place := by
  cases turnsOut_of_decode h with
  | definition d => rfl

theorem placeOfContainer_of_decode {kind : EntryKind} {place : Provenance} {c : Container}
    (h : D.decode e s = .ok (.container kind place c) s') :
    place = e.place ∧ placeOfContainer c = e.place := by
  cases turnsOut_of_decode h with
  | archive | androidLibrary | dalvik => exact ⟨rfl, rfl⟩

theorem placeOfPosition_of_enter {c : Container} {p : Position}
    (h : D.enter c s = .ok p s') : placeOfPosition p = placeOfContainer c := by
  obtain ⟨e, only, rfl, rfl⟩ | ⟨e, rfl, rfl, -⟩ := enter_eq_ok h
  · rfl
  · rfl

theorem position_of_enter {c : Container} {p : Position} (h : D.enter c s = .ok p s') :
    p.isArchive ∨ ∃ e, p = .dalvikStart e := by
  obtain ⟨e, only, -, rfl⟩ | ⟨e, -, rfl, -⟩ := enter_eq_ok h
  · exact .inl trivial
  · exact .inr ⟨e, rfl⟩

/-- What a pull leads to: a member of the archive that the position is in, or a class file of the
conversion. -/
inductive Leads (D : Decoding) (p : Position) : Entry → Position → Prop
  | member {source : Zip.Source} {only : Option Text} {r : Zip.Record} {left : List Zip.Record} :
    p.isArchive → Leads D p (memberEntry D source (placeOfPosition p) r)
      (.archive source (placeOfPosition p) only left)
  | classFile {scratch : List Text} {name : Text} {left : List Text} :
    ¬ p.isArchive → Leads D p (entry scratch (placeOfPosition p) name)
      (.converted (placeOfPosition p) left)

theorem leads_of_pull {p p' : Position} (h : D.pull p s = .ok (some (e, p')) s') :
    Leads D p e p' := by
  cases p with
  | archiveStart container only =>
    obtain ⟨⟨⟩, s₁, -, h₁⟩ := work_bind_eq_ok_iff.1 h
    obtain ⟨bytes, s₂, -, h₂⟩ := work_bind_eq_ok_iff.1 h₁
    cases hrecords : Zip.directory { bytes, medium := container.medium } with
    | ok records =>
      simp only [hrecords] at h₂
      obtain ⟨r, left, rfl, rfl⟩ := pullMember_eq_some h₂
      exact .member trivial
    | error fault =>
      simp only [hrecords] at h₂
      cases h₂
  | archive source place only left =>
    obtain ⟨r, left, rfl, rfl⟩ := pullMember_eq_some h
    exact .member trivial
  | dalvikStart container =>
    obtain ⟨names, s₁, -, h₁⟩ := work_bind_eq_ok_iff.1 h
    obtain ⟨name, left, rfl, rfl⟩ := pullConverted_eq_some h₁
    exact .classFile id
  | converted place left =>
    obtain ⟨name, left, rfl, rfl⟩ := pullConverted_eq_some h
    exact .classFile id

theorem place_of_pull {p p' : Position} (h : D.pull p s = .ok (some (e, p')) s') :
    (∃ name converted, e.place = (placeOfPosition p).child name converted) ∧
      placeOfPosition p' = placeOfPosition p ∧ (p.isArchive → p'.isArchive) := by
  cases leads_of_pull h with
  | member => exact ⟨⟨_, false, rfl⟩, rfl, fun _ => trivial⟩
  | classFile hconverted => exact ⟨⟨_, true, rfl⟩, rfl, fun hp => absurd hp hconverted⟩

end Places

/-- The entries of a container lie in it. -/
def nesting (D : Decoding) : Nesting D.decoder where
  ofContainer := placeOfContainer
  ofPosition := placeOfPosition
  definition := place_of_decode
  container := placeOfContainer_of_decode
  enter := placeOfPosition_of_enter
  pull h := ⟨(place_of_pull h).1, (place_of_pull h).2.1⟩

/-! ## Trees of files -/

section Trees

variable {D : Decoding} {host after : Host} {scratch : List Text} {s s' : Session}

/-- A conversion that goes well gives the class files by their names. -/
theorem pull_dalvikStart {e : Entry} {given : List Text}
    (h : start D.readDalvik e s = .ok given s') :
    D.pull (.dalvikStart e) s = D.pull (.converted e.place given) s' := by
  show (start D.readDalvik e >>= fun names => pullConverted e.place names) s = _
  rw [work_bind_apply, h]
  rfl

theorem pull_dalvikStart_of_error {e : Entry} {trouble : Trouble}
    (h : start D.readDalvik e s = .error trouble s') :
    D.pull (.dalvikStart e) s = .error trouble s' := by
  show (start D.readDalvik e >>= fun names => pullConverted e.place names) s = _
  rw [work_bind_apply, h]

theorem pull_converted_nil (D : Decoding) (place : Provenance) (h : removeFault? s = none) :
    D.pull (.converted place []) s = .ok none (remove s) := by
  show pullConverted place [] s = _
  rw [pullConverted]
  simp only [h]

theorem pull_converted_nil_of_some (D : Decoding) (place : Provenance) {fault : Fault}
    (h : removeFault? s = some fault) :
    D.pull (.converted place []) s = .error (.aborted fault) (remove s) := by
  show pullConverted place [] s = _
  rw [pullConverted]
  simp only [h]

/-- A class file is no container, and something. -/
theorem definition_of_classFile {e : Entry} (hkind : EntryKind.ofName e.name = .classFile)
    {decoded : Walk.Decoded Container} (h : D.decode e s = .ok decoded s') :
    ∃ o, decoded = .definition o := by
  cases turnsOut_of_decode h with
  | definition d => exact ⟨_, rfl⟩
  | _ hother => cases hkind.symm.trans hother

/-- A class file is one in every session with its host. -/
theorem is_of_classFile {e : Entry} {t : Walk.Tree} (hkind : EntryKind.ofName e.name = .classFile)
    (h : Unfolds D.decoder s e t s') (hs : At host scratch s) :
    Is D.decoder (At host scratch) e t ∧ At host scratch s' := by
  cases h with
  | leaf hd =>
    obtain ⟨hyields, hs'⟩ := (Steady.decode D e).yields hs hd
    exact ⟨.leaf hyields, hs'⟩
  | broken hd =>
    obtain ⟨hfails, hs'⟩ := (Steady.decode D e).fails hs hd
    exact ⟨.broken hfails, hs'⟩
  | other hd => obtain ⟨o, heq⟩ := definition_of_classFile hkind hd; cases heq
  | sealed hd => obtain ⟨o, heq⟩ := definition_of_classFile hkind hd; cases heq
  | node hd => obtain ⟨o, heq⟩ := definition_of_classFile hkind hd; cases heq

/-- A conversion that goes well leaves class files behind, in its directory. -/
theorem during_of_converted (hfree : Free host scratch) {e : Entry} {found : List Text}
    (h : converted D.readDalvik e host scratch = .ok found after) :
    During host scratch after ∧ ∀ n ∈ found, EntryKind.ofName n = .classFile := by
  obtain ⟨ds, -, hwrite, rfl⟩ := converted_eq_ok h
  refine ⟨writeClasses_during hfree.during hwrite, fun n hn => ?_⟩
  obtain ⟨d, -, rfl⟩ := mem_names.1 hn
  exact ofName_fileName d

/-- Removing the directory of a conversion leaves the host as it was, if it raises nothing. -/
theorem at_remove (hduring : During host scratch after) (hs : At after scratch s)
    (hgoes : removeFault? s = none) : At host scratch (remove s) := by
  obtain ⟨hcleared, hscratch⟩ := cleared_remove (hs.1 ▸ hduring) hs.2
  rw [hgoes] at hcleared
  exact ⟨hcleared.eq_before, hscratch⟩

/-- Whether it raises something depends on the host alone. -/
theorem removeFault?_congr {s' : Session} (hs : At after scratch s) (hs' : At after scratch s') :
    removeFault? s = removeFault? s' := by
  rw [removeFault?, removeFault?, hs.1, hs.2, hs'.1, hs'.2]

/-- While the class files of a conversion are read its directory stands; after the last one the host
is what it was. -/
theorem gives_of_converted (hduring : During host scratch after) {place : Provenance}
    {left : List Text} (hleft : ∀ n ∈ left, EntryKind.ofName n = .classFile) {f : Forest}
    (h : Delivers D.decoder s (.converted place left) f s') (hs : At after scratch s) :
    Gives D.decoder (At after scratch) (At host scratch) (.converted place left) f ∧
      At host scratch s' := by
  induction left generalizing s f with
  | nil =>
    cases hgoes : removeFault? s with
    | none =>
      have hdone :
          Yields (At after scratch) (At host scratch) (D.pull (.converted place [])) none := by
        intro w hw
        have hgoes : removeFault? w = none := removeFault?_congr hw hs ▸ hgoes
        exact ⟨remove w, pull_converted_nil D place hgoes, at_remove hduring hw hgoes⟩
      obtain ⟨w', hpull, hw'⟩ := hdone s hs
      cases h with
      | done hp => cases hpull.symm.trans hp; exact ⟨.done hdone, hw'⟩
      | cut hp => cases hpull.symm.trans hp
      | more hp => cases hpull.symm.trans hp
    | some fault =>
      have hpull : D.decoder.pull (.converted place []) s = .error (.aborted fault) (remove s) :=
        pull_converted_nil_of_some D place hgoes
      cases h with
      | done hp | cut hp | more hp => cases hpull.symm.trans hp
  | cons name left ih =>
    have hnext : Yields (At after scratch) (At after scratch)
        (D.pull (.converted place (name :: left)))
        (some (entry scratch place name, .converted place left)) :=
      fun w hw => ⟨w, by rw [← hw.2]; rfl, hw⟩
    obtain ⟨w', hpull, hw'⟩ := hnext s hs
    cases h with
    | done hp => cases hpull.symm.trans hp
    | cut hp => cases hpull.symm.trans hp
    | more hp ht hrest =>
      cases hpull.symm.trans hp
      obtain ⟨hfirst, hw₁⟩ := is_of_classFile (hleft name (List.mem_cons_self ..)) ht hw'
      obtain ⟨hothers, hs'⟩ := ih (fun n hn => hleft n (List.mem_cons_of_mem _ hn)) hrest hw₁
      exact ⟨.more hnext hfirst hothers, hs'⟩

/-- A Dalvik file gives the same in every session with its host, and leaves the host as it was. -/
theorem gives_of_dalvikStart (hfree : Free host scratch) {e : Entry} {f : Forest}
    (h : Delivers D.decoder s (.dalvikStart e) f s') (hs : At host scratch s) :
    Gives D.decoder (At host scratch) (At host scratch) (.dalvikStart e) f ∧
      At host scratch s' := by
  cases hconverted : converted D.readDalvik e host scratch with
  | error trouble after =>
    have hduring : During host scratch after := by
      have hstands := during_converted hfree D.readDalvik e
      rwa [hconverted] at hstands
    have hpull : ∀ w, At host scratch w → D.pull (.dalvikStart e) w =
        .error (troubleAfter trouble (reached w e after)) (remove (reached w e after)) :=
      fun w hw => pull_dalvikStart_of_error (start_of_converted_error
        (by rw [hw.1, hw.2]; exact hconverted))
    have hs' : D.decoder.pull (.dalvikStart e) s = _ := hpull s hs
    cases h with
    | done hp => cases hs'.symm.trans hp
    | @cut _ _ _ failure hp =>
      obtain ⟨htrouble, hw⟩ := EStateM.Result.error.inj (hs'.symm.trans hp)
      obtain ⟨rfl, hgoes⟩ := troubleAfter_eq_failed_iff.1 htrouble
      have hleft : ∀ w, At host scratch w →
          removeFault? (reached w e after) = none ∧
            At host scratch (remove (reached w e after)) := fun w hw => by
        have hsame : removeFault? (reached w e after) = removeFault? (reached s e after) :=
          removeFault?_congr ⟨rfl, hw.2⟩ ⟨rfl, hs.2⟩
        exact ⟨hsame.trans hgoes, at_remove hduring ⟨rfl, hw.2⟩ (hsame.trans hgoes)⟩
      refine ⟨.cut fun w hw => ⟨_, ?_, (hleft w hw).2⟩, hw ▸ (hleft s hs).2⟩
      exact (hpull w hw).trans (by rw [troubleAfter_eq_failed_iff.2 ⟨rfl, (hleft w hw).1⟩])
    | more hp => cases hs'.symm.trans hp
  | ok found after =>
    obtain ⟨hduring, hfiles⟩ := during_of_converted hfree hconverted
    have hstart : At after scratch (reached s e after) := ⟨rfl, hs.2⟩
    have halike : ∀ w, At host scratch w → D.decoder.pull (.dalvikStart e) w =
        D.decoder.pull (.converted e.place found) (reached w e after) := fun w hw =>
      pull_dalvikStart (start_of_converted (by rw [hw.1, hw.2]; exact hconverted))
    have hdelivers := h.of_pull (halike s hs)
    obtain ⟨hgives, hs'⟩ := gives_of_converted hduring hfiles hdelivers hstart
    exact ⟨hgives.of_pull fun w hw => ⟨_, ⟨rfl, hw.2⟩, halike w hw⟩, hs'⟩

mutual

/-- An entry that is a tree in one session is that tree in every session with its host. -/
theorem is_of_unfolds (hfree : Free host scratch) {s s' : Session} {e : Entry} {t : Walk.Tree}
    (h : Unfolds D.decoder s e t s') (hs : At host scratch s) :
    Is D.decoder (At host scratch) e t ∧ At host scratch s' := by
  cases h with
  | leaf hd =>
    obtain ⟨hyields, hs'⟩ := (Steady.decode D e).yields hs hd
    exact ⟨.leaf hyields, hs'⟩
  | other hd =>
    obtain ⟨hyields, hs'⟩ := (Steady.decode D e).yields hs hd
    exact ⟨.other hyields, hs'⟩
  | broken hd =>
    obtain ⟨hfails, hs'⟩ := (Steady.decode D e).fails hs hd
    exact ⟨.broken hfails, hs'⟩
  | sealed hd he =>
    obtain ⟨hyields, hs₁⟩ := (Steady.decode D e).yields hs hd
    obtain ⟨hfails, hs'⟩ := (Steady.enter D _).fails hs₁ he
    exact ⟨.sealed hyields hfails, hs'⟩
  | node hd he hp =>
    obtain ⟨hyields, hs₁⟩ := (Steady.decode D e).yields hs hd
    obtain ⟨hentered, hs₂⟩ := (Steady.enter D _).yields hs₁ he
    -- An opened container is an archive or a Dalvik file.
    rcases position_of_enter he with harchive | ⟨container, rfl⟩
    · obtain ⟨hgives, hs'⟩ := gives_of_archive hfree harchive hp hs₂
      exact ⟨.node hyields hentered hgives, hs'⟩
    · obtain ⟨hgives, hs'⟩ := gives_of_dalvikStart hfree hp hs₂
      exact ⟨.node hyields hentered hgives, hs'⟩

/-- What an archive delivers in one session it delivers in every session with its host. -/
theorem gives_of_archive (hfree : Free host scratch) {s s' : Session} {p : Position}
    (hp : p.isArchive) {f : Forest} (h : Delivers D.decoder s p f s') (hs : At host scratch s) :
    Gives D.decoder (At host scratch) (At host scratch) p f ∧ At host scratch s' := by
  cases h with
  | done hpull =>
    obtain ⟨hyields, hs'⟩ := (Steady.pull D hp).yields hs hpull
    exact ⟨.done hyields, hs'⟩
  | cut hpull =>
    obtain ⟨hfails, hs'⟩ := (Steady.pull D hp).fails hs hpull
    exact ⟨.cut hfails, hs'⟩
  | more hpull ht hrest =>
    obtain ⟨hyields, hs₁⟩ := (Steady.pull D hp).yields hs hpull
    obtain ⟨hfirst, hs₂⟩ := is_of_unfolds hfree ht hs₁
    obtain ⟨hothers, hs'⟩ := gives_of_archive hfree ((place_of_pull hpull).2.2 hp) hrest hs₂
    exact ⟨.more hyields hfirst hothers, hs'⟩

end

theorem isAll_of_unfoldsAll (hfree : Free host scratch) {es : List Entry} {ts : List Walk.Tree}
    (h : UnfoldsAll D.decoder s es ts s') (hs : At host scratch s) :
    List.Forall₂ (Is D.decoder (At host scratch)) es ts := by
  induction h with
  | nil => exact .nil
  | cons ht _ ih =>
    obtain ⟨hfirst, hs₁⟩ := is_of_unfolds hfree ht hs
    exact .cons hfirst (ih hs₁)

end Trees

end Decoding

end JndiScan
