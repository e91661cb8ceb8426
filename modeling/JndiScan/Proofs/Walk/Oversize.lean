/-
Entries that are too large. Each kind of entry is turned away at a moment of its own, and always
before anything is read. A decoder can be asked to keep the entries whose content is opened, which
changes nothing else; over any walk no entry that is too large is among them.
-/
import JndiScan.Proofs.Walk.Archives
import JndiScan.Proofs.Walk.Related

namespace JndiScan.Decoding

open Walk (Comes Limits Next Root State Tally expand_of_enter isExhausted_eq_false mapWorld
  occurrences occurrences_of_wanted related_occurrences step step_of_pull visit visit_of_decode)

/-! ## The moments of refusal -/

/-- An entry of the kind is turned away with a failure while the session stays as it is. A class file
does not decode. A Dalvik file is a container that is not entered, an archive one that is entered and
gives nothing. Anything else is passed over without a failure. -/
def TurnedAway (D : Decoding) (failure : Failure) (e : Entry) : EntryKind → Prop
  | .classFile => ∀ s, D.decode e s = .error (.failed failure) s
  | .dalvik => ∀ s, D.decode e s = .ok (.container .dalvik e.place (.dalvik e)) s ∧
    D.enter (.dalvik e) s = .error (.failed failure) s
  | .archive => ∀ s, D.decode e s = .ok (.container .archive e.place (.archive e none)) s ∧
    D.enter (.archive e none) s = .ok (.archiveStart e none) s ∧
    D.pull (.archiveStart e none) s = .error (.failed failure) s
  | .androidLibrary => ∀ s,
    D.decode e s =
      .ok (.container .androidLibrary e.place (.archive e (some libraryClasses))) s ∧
    D.enter (.archive e (some libraryClasses)) s =
      .ok (.archiveStart e (some libraryClasses)) s ∧
    D.pull (.archiveStart e (some libraryClasses)) s = .error (.failed failure) s
  | .unknown => ∀ s, D.decode e s = .ok (.unrecognized e.name) s

section Refusal

variable {D : Decoding} {n size : Int} {e : Entry}

/-- What is said of an entry that is too large. -/
def tooLarge (e : Entry) (size n : Int) : Failure := .entry e.place (.oversize size n)

/-- An entry that is too large is turned away before its content is opened. -/
theorem turnedAway_of_exceeded (hlimit : D.maxEntrySize = .atMost n)
    (hsize : e.size = some size) (h : n < size) :
    TurnedAway D (tooLarge e size n) e (EntryKind.ofName e.name) := by
  have hcheck : e.checkSize D.maxEntrySize = throw (.failed (tooLarge e size n)) :=
    hlimit ▸ checkSize_of_exceeded hsize h
  cases hkind : EntryKind.ofName e.name with
  | classFile =>
    intro s
    rw [decode_of_kind hkind]
    simp only [readClass, hcheck]
    rfl
  | dalvik =>
    refine fun s => ⟨by rw [decode_of_kind hkind]; rfl, ?_⟩
    simp only [enter, hcheck]
    rfl
  | archive | androidLibrary =>
    exact fun s => ⟨by rw [decode_of_kind hkind]; rfl, rfl,
      pull_archiveStart_of_exceeded hlimit hsize h _ s⟩
  | unknown =>
    intro s
    rw [decode_of_kind hkind]
    rfl

end Refusal

/-! ## What is opened over a walk -/

/-- Work about an entry, with the entry kept beside the session when something is opened. -/
def watching (e? : Option Entry) (work : Work α) :
    EStateM Trouble (Session × List Entry) α :=
  fun w => mapWorld
    (fun s => (s, if s.opened = w.1.opened then w.2 else e?.toList ++ w.2)) (work w.1)

/-- The entry that a container is made of. -/
def Container.source : Container → Entry
  | .archive e _ | .dalvik e => e

/-- The entry whose content is asked for at a position. -/
def Position.source? : Position → Option Entry
  | .archiveStart e _ | .dalvikStart e => some e
  | .archive _ _ _ _ | .converted _ _ => none

/-- The decoder that keeps beside the session the entries whose content is opened, last first. -/
def watched (D : Decoding) :
    Walk.Decoder (Session × List Entry) Entry Container Position where
  placeOf := Entry.place
  decode e := watching (some e) (D.decode e)
  enter c := watching (some (Container.source c)) (D.enter c)
  pull p := watching (Position.source? p) (D.pull p)
  close p w := (close p w.1, w.2)
  closeFault? p w := closeFault? p w.1

/-- The entry is of a known kind, and its size, if it is known, is within the limit. -/
structure MayOpen (n : Int) (e : Entry) : Prop where
  known : EntryKind.ofName e.name ≠ .unknown
  within : Within n e

/-- The session beside the entries that were opened since a time, each of which may be opened. -/
structure Watches (n : Int) (before : List Provenance) (w : Session × List Entry) (s : Session) :
    Prop where
  session : w.1 = s
  opened : w.1.opened = w.2.map Entry.place ++ before
  mayOpen : ∀ e ∈ w.2, MayOpen n e

/-- A container is made of an entry of a known kind. -/
def Known (c : Container) : Prop :=
  EntryKind.ofName (Container.source c).name ≠ .unknown

/-- What is known of the entry of a position: at the start of a Dalvik file its size is not asked for
any more. -/
def Checked (n : Int) : Position → Prop
  | .archiveStart e only => Known (.archive e only)
  | .dalvikStart e => MayOpen n e
  | .archive _ _ _ _ | .converted _ _ => True

/-- Work that opens nothing, or once the content of an entry that may be opened. -/
def Opens (n : Int) (e? : Option Entry) (work : Work α) : Prop :=
  ∀ s, (stateOf (work s)).opened = s.opened ∨
    ∃ e, e? = some e ∧ MayOpen n e ∧ (stateOf (work s)).opened = e.place :: s.opened

section Watching

variable {D : Decoding} {n : Int} {before : List Provenance} {e : Entry}

theorem Opens.alike {e? : Option Entry} {work : Work α} (h : Opens n e? work) {P : α → Prop}
    {w : Session × List Entry} {s : Session} (hw : Watches n before w s)
    (hP : ∀ x s', work s = .ok x s' → P x) :
    Alike (Watches n before) P (watching e? work w) (work s) := by
  obtain ⟨session, entries⟩ := w
  obtain ⟨hsession, hopened, hmay⟩ := hw
  simp only at hsession hopened hmay
  subst hsession
  have hkept : Watches n before
      (stateOf (work session), if (stateOf (work session)).opened = session.opened then entries
        else e?.toList ++ entries) (stateOf (work session)) := by
    rcases h session with hsame | ⟨e, rfl, he, hone⟩
    · rw [if_pos hsame]
      exact ⟨rfl, hsame.trans hopened, hmay⟩
    · have hmore : (stateOf (work session)).opened ≠ session.opened := by
        rw [hone]
        exact List.cons_ne_self e.place session.opened
      rw [if_neg hmore]
      refine ⟨rfl, ?_, List.forall_mem_cons.2 ⟨he, hmay⟩⟩
      rw [hone, hopened]
      rfl
  simp only [watching]
  cases hx : work session with
  | ok x s' =>
    rw [hx] at hkept
    exact .ok (hP x s' hx) hkept
  | error trouble s' =>
    rw [hx] at hkept
    exact .error hkept

theorem within_of_checkSize (hlimit : D.maxEntrySize = .atMost n) {s s' : Session}
    (h : e.checkSize D.maxEntrySize s = .ok () s') : Within n e := by
  intro size hsize
  by_contra hexceeded
  rw [hlimit, checkSize_of_exceeded hsize (Int.not_le.1 hexceeded)] at h
  cases h

/-- What comes after the check of an entry opens at most its content. -/
theorem opens_checked (hlimit : D.maxEntrySize = .atMost n) {f : Unit → Work α}
    (h : Within n e → Opens n (some e) (f ())) :
    Opens n (some e) (e.checkSize D.maxEntrySize >>= f) := by
  intro s
  by_cases hwithin : Within n e
  · rw [hlimit, checkSize_of_within hwithin, pure_bind]
    exact h hwithin s
  · obtain ⟨size, hsize, hexceeded⟩ : ∃ size, e.size = some size ∧ n < size := by
      simpa [Within] using hwithin
    rw [hlimit, checkSize_of_exceeded hsize hexceeded]
    exact .inl rfl

/-- Work that comes after the content of an entry, and opens nothing itself. -/
theorem opens_need (hmay : MayOpen n e) {f : Bytes → Work α}
    (h : ∀ bytes s, (stateOf (f bytes s)).opened = s.opened) :
    Opens n (some e) (e.need >>= f) := by
  intro s
  refine .inr ⟨e, rfl, hmay, ?_⟩
  rw [work_bind_apply, Entry.need, Entry.read]
  cases e.content s.host with
  | ok bytes => exact h bytes _
  | error fault => rfl

theorem opened_pullMember (source : Zip.Source) (place : Provenance) (only : Option Text)
    (records : List Zip.Record) (s : Session) :
    (stateOf (pullMember D source place only records s)).opened = s.opened := by
  induction records with
  | nil => rfl
  | cons r records ih =>
    rw [pullMember]
    cases r.isDirectory? with
    | none => rfl
    | some isDirectory =>
      cases isDirectory with
      | true => exact ih
      | false =>
        simp only
        split
        · rfl
        · exact ih

theorem opens_decode (hlimit : D.maxEntrySize = .atMost n) (e : Entry) :
    Opens n (some e) (D.decode e) := by
  cases hkind : EntryKind.ofName e.name with
  | classFile =>
    rw [decode_of_kind hkind]
    simp only [readClass, bind_assoc]
    refine opens_checked hlimit fun hwithin => opens_need ⟨?_, hwithin⟩ fun bytes s => ?_
    · simp [hkind]
    · cases ClassFile.read bytes <;> rfl
  | _ =>
    rw [decode_of_kind hkind]
    exact fun s => .inl rfl

theorem opens_enter (hlimit : D.maxEntrySize = .atMost n) (c : Container) :
    Opens n (some (Container.source c)) (D.enter c) := by
  cases c with
  | archive e only => exact fun s => .inl rfl
  | dalvik e => exact opens_checked hlimit fun _ s => .inl rfl

theorem known_of_decode {e : Entry} {x : Walk.Decoded Container} {s s' : Session}
    (h : D.decode e s = .ok x s') {kind : EntryKind} {place : Provenance} {c : Container}
    (hx : x = .container kind place c) : Known c := by
  subst hx
  cases turnsOut_of_decode h with
  | archive hkind | androidLibrary hkind | dalvik hkind =>
    simp [Known, Container.source, hkind]

theorem checked_of_enter (hlimit : D.maxEntrySize = .atMost n) {c : Container} (hknown : Known c)
    {p : Position} {s s' : Session} (h : D.enter c s = .ok p s') : Checked n p := by
  obtain ⟨e, only, rfl, rfl⟩ | ⟨e, rfl, rfl, hsize⟩ := enter_eq_ok h
  · exact hknown
  · exact ⟨hknown, within_of_checkSize hlimit hsize⟩

theorem opened_remove (s : Session) : (Dalvik.Conversion.remove s).opened = s.opened := by
  unfold Dalvik.Conversion.remove
  split <;> rfl

theorem opened_start (readClasses : Dalvik.ClassReader) (e : Entry) (s : Session) :
    (stateOf (Dalvik.Conversion.start readClasses e s)).opened = e.place :: s.opened := by
  rw [Dalvik.Conversion.start_eq]
  cases Dalvik.Conversion.converted readClasses e s.host s.scratch with
  | ok found host => rfl
  | error trouble host => exact opened_remove (Dalvik.Conversion.reached s e host)

theorem opened_pullConverted (place : Provenance) (left : List Text) (s : Session) :
    (stateOf (pullConverted place left s)).opened = s.opened := by
  cases left with
  | nil =>
    unfold pullConverted
    cases Dalvik.Conversion.removeFault? s <;> exact opened_remove s
  | cons name left => rfl

theorem opened_close (p : Position) (s : Session) : (close p s).opened = s.opened := by
  cases p with
  | converted place left => exact opened_remove s
  | archiveStart | archive | dalvikStart => rfl

theorem opens_pull (hlimit : D.maxEntrySize = .atMost n) {p : Position} (h : Checked n p) :
    Opens n (Position.source? p) (D.pull p) := by
  cases p with
  | archiveStart e only =>
    refine opens_checked hlimit fun hwithin => opens_need ⟨h, hwithin⟩ fun bytes s => ?_
    cases Zip.directory ⟨bytes, e.medium⟩ with
    | ok records => exact opened_pullMember ..
    | error fault => rfl
  | archive source place only left => exact fun s => .inl (opened_pullMember ..)
  | dalvikStart e =>
    intro s
    refine .inr ⟨e, rfl, h, ?_⟩
    have hstarted := opened_start D.readDalvik e s
    simp only [pull, work_bind_apply]
    cases hx : Dalvik.Conversion.start D.readDalvik e s with
    | ok names s' =>
      rw [hx] at hstarted
      exact (opened_pullConverted ..).trans hstarted
    | error trouble s' =>
      rw [hx] at hstarted
      exact hstarted
  | converted place left => exact fun s => .inl (opened_pullConverted ..)

theorem checked_of_pull {p q : Position} {x : Entry} {s s' : Session}
    (h : D.pull p s = .ok (some (x, q)) s') : Checked n q := by
  cases leads_of_pull h with
  | member | classFile => trivial

/-- Keeping the entries changes nothing else, and what is kept may be opened. -/
theorem watched_related (hlimit : D.maxEntrySize = .atMost n) (before : List Provenance) :
    D.watched.Related (Watches n before) Known (Checked n) D.decoder where
  placeOf _ := rfl
  decode e _ _ hw := (opens_decode hlimit e).alike hw fun _ _ h _ _ _ => known_of_decode h
  enter hknown hw :=
    (opens_enter hlimit _).alike hw fun _ _ => checked_of_enter hlimit hknown
  pull hp hw := (opens_pull hlimit hp).alike hw fun _ _ hx _ hnext => by
    cases hnext
    exact checked_of_pull hx
  close {p w s} _ hw := by
    obtain ⟨rfl, hopened, hmay⟩ := hw
    exact ⟨rfl, (opened_close p _).trans hopened, hmay⟩
  closeFault? _ hw := by
    rw [← hw.session]
    rfl

end Watching

/-! ## What an entry that is too large costs -/

/-- What is met, with an entry that is turned away: it is seen, and leaves one diagnostic, which is
not fatal. -/
def charged (t : Tally) (e : Entry) (failure : Failure) (console : Console) : Tally :=
  { t with
    entriesSeen := t.entriesSeen + 1
    diagnostics := t.diagnostics.push
      { location := e.place.text, message := failure.reason, fatal := false }
    console }

section Cost

variable {D : Decoding} {l : Limits} {m : Int} {wanted : Option Nat} {e : Entry} {depth : Nat}
variable {s s₁ : State Session Entry Position} {reason : Reason}

/-- An archive that gives nothing is left as soon as it is asked. -/
theorem occurrences_of_barren {place : Provenance} {only : Option Text} {kind : EntryKind}
    (hcomes : Comes D.decoder s e depth s₁) (hb : s.tally.entriesSeen < l.budget)
    (hm : l.maxDepth = .atMost m) (hdepth : depth < m.toNat) (hw : wanted ≠ some 0)
    (hdecode : ∀ s, D.decode e s = .ok (.container kind place (.archive e only)) s)
    (hpull : ∀ s, D.pull (.archiveStart e only) s = .error (.failed (.entry e.place reason)) s) :
    ∃ console, occurrences D.decoder l wanted s = occurrences D.decoder l wanted
      { s₁ with tally := charged s.tally e (.entry e.place reason) console } := by
  have htally := hcomes.tally_eq
  have hentered : step D.decoder l s = .continues
      { s₁ with
        tally := (s₁.tally.note .visited).note (.opened kind place)
        frames := (.archiveStart e only, depth + 1) :: s₁.frames } := by
    rw [hcomes.step_eq (Nat.le_of_lt hb), visit_of_decode (htally ▸ hb),
      show D.decoder.decode e s₁.world = _ from hdecode s₁.world]
    simp only [expand_of_enter hm hdepth]
    rfl
  rw [occurrences_of_wanted hw, hentered, Next.occurrences, occurrences_of_wanted hw,
    step_of_pull rfl (by rw [htally]; exact hb)]
  simp only
  rw [show D.decoder.pull (.archiveStart e only) s₁.world = _ from hpull s₁.world, htally]
  exact ⟨_, rfl⟩

/-- The walk goes on as if the entry that is turned away had not come, but for what is charged. -/
theorem occurrences_of_turnedAway (hcomes : Comes D.decoder s e depth s₁)
    (hb : s.tally.entriesSeen < l.budget) (hm : l.maxDepth = .atMost m) (hdepth : depth < m.toNat)
    (hw : wanted ≠ some 0) {kind : EntryKind} (hkind : kind ≠ .unknown)
    (h : TurnedAway D (.entry e.place reason) e kind) :
    ∃ console, occurrences D.decoder l wanted s = occurrences D.decoder l wanted
      { s₁ with tally := charged s.tally e (.entry e.place reason) console } := by
  have htally := hcomes.tally_eq
  have hstep := hcomes.step_eq (Nat.le_of_lt hb)
  rw [visit_of_decode (htally ▸ hb)] at hstep
  cases kind with
  | classFile =>
    rw [show D.decoder.decode e s₁.world = _ from h s₁.world] at hstep
    rw [occurrences_of_wanted hw, hstep, htally]
    exact ⟨_, rfl⟩
  | dalvik =>
    obtain ⟨hdecode, henter⟩ := h s₁.world
    rw [show D.decoder.decode e s₁.world = _ from hdecode] at hstep
    simp only [expand_of_enter hm hdepth] at hstep
    rw [show D.decoder.enter (.dalvik e) s₁.world = _ from henter] at hstep
    rw [occurrences_of_wanted hw, hstep, htally]
    exact ⟨_, rfl⟩
  | archive | androidLibrary =>
    exact occurrences_of_barren hcomes hb hm hdepth hw (fun s => (h s).1) fun s => (h s).2.2
  | unknown => exact (hkind rfl).elim

end Cost

/-- No entry that is too large is ever opened. Each is turned away at the moment that its kind
calls for, with a failure at its own place, and anything that is not of a known kind is passed over
whatever its size. Over a walk from any roots, within any limits and as far as it is wanted, what is
opened are entries of known kinds whose sizes are not known or within the limit. An entry that is
too large and comes within the limits of the walk costs one diagnostic that is not fatal: the walk
goes on as it does without the entry. -/
theorem oversize_never_opened {D : Decoding} {n : Int} (hlimit : D.maxEntrySize = .atMost n) :
    (∀ e size, e.size = some size → n < size →
      TurnedAway D (tooLarge e size n) e (EntryKind.ofName e.name)) ∧
    (∀ e, EntryKind.ofName e.name = .unknown → ∀ s, D.decode e s = .ok (.unrecognized e.name) s) ∧
    (∀ l wanted tally roots session,
      (occurrences D.watched l wanted { world := (session, []), tally, roots }).Related
        (Watches n session.opened)
        (occurrences D.decoder l wanted { world := session, tally, roots })) ∧
    ∀ l m wanted s e depth s₁ size, l.maxDepth = .atMost m → wanted ≠ some 0 →
      Comes D.decoder s e depth s₁ → depth < m.toNat → s.tally.entriesSeen < l.budget →
      e.size = some size → n < size → EntryKind.ofName e.name ≠ .unknown →
      ∃ console, occurrences D.decoder l wanted s = occurrences D.decoder l wanted
        { s₁ with tally := charged s.tally e (tooLarge e size n) console } := by
  refine ⟨fun e size hsize h => turnedAway_of_exceeded hlimit hsize h, fun e hkind s => ?_,
    fun l wanted tally roots session => ?_, ?_⟩
  · rw [decode_of_kind hkind]
    rfl
  · exact related_occurrences (watched_related hlimit session.opened) wanted
      ⟨⟨rfl, rfl, List.forall_mem_nil _⟩, rfl, rfl, rfl, List.forall_mem_nil _⟩
  · intro l m wanted s e depth s₁ size hm hw hcomes hdepth hb hsize h hkind
    exact occurrences_of_turnedAway hcomes hb hm hdepth hw hkind
      (turnedAway_of_exceeded hlimit hsize h)

/-- A class file of 31 octets. -/
def smallClass : Entry where
  name := "C.class"
  place := { root := "/C.class" }
  payload := .given (.ok Walk.bareClassOctets)
  size := some 31

/-- An archive that is said to have 2000 octets. -/
def largeArchive : Entry where
  name := "a.jar"
  place := { root := "/a.jar" }
  payload := .given (.ok [])
  size := some 2000

/-- The start of a walk over both. -/
def largeBesideSmall : State Session Entry Position where
  world := { host := { root := .directory [] }, scratch := [] }
  tally := { console := { verbose := false } }
  roots := [.entry largeArchive, .entry smallClass]

/-- With a limit of 1024 octets the archive is charged for, and the class behind it is found and
alone is opened. -/
theorem oversize_never_opened_largeArchive :
    let D : Decoding := { maxEntrySize := .atMost 1024 }
    let s := largeBesideSmall
    D.maxEntrySize = .atMost 1024 ∧
      (∀ s, D.pull (.archiveStart largeArchive none) s =
        .error (.failed (tooLarge largeArchive 2000 1024)) s) ∧
      (∃ console, occurrences D.decoder {} none s = occurrences D.decoder {} none
        { s with
          roots := [.entry smallClass]
          tally := charged s.tally largeArchive (tooLarge largeArchive 2000 1024) console }) ∧
      let r := occurrences D.watched {} none { s with world := (s.world, []) }
      r.value = [Walk.bareClass] ∧ r.world.2.map Entry.place = [smallClass.place] ∧
        r.tally.diagnostics.toList.map Diagnostic.fatal = [false] := by
  intro D s
  have hkind : EntryKind.ofName largeArchive.name = .archive := by decide +kernel
  obtain ⟨haway, -, -, hcost⟩ := oversize_never_opened (D := D) rfl
  have harchive := haway largeArchive 2000 rfl (by decide)
  rw [hkind] at harchive
  have hknown : EntryKind.ofName largeArchive.name ≠ .unknown := by simp [hkind]
  refine ⟨rfl, fun s => (harchive s).2.2, ?_, ?_⟩
  · exact hcost {} 16 none s largeArchive 0 _ 2000 rfl (by simp) (.root rfl rfl) (by decide)
      (by decide) rfl (by decide) hknown
  · decide +kernel

end JndiScan.Decoding
