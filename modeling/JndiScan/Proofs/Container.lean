/-
Decoding taken apart once. `TurnsOut` says what an entry can turn out to be, and `enter_eq_ok`,
`pullMember_eq_some` and `pullConverted_eq_some` say what containers give, so that nothing else has
to open these definitions. `Composed` gathers what a property of work needs to hold of all decoding,
short of conversions.
-/
import JndiScan.Container
import JndiScan.Proofs.Effect

namespace JndiScan.Decoding

variable {D : Decoding} {e x : Entry} {s s' : Session}

/-! ## Entries -/

theorem decode_of_kind {kind : EntryKind} (hkind : EntryKind.ofName e.name = kind) :
    D.decode e =
      match kind with
      | .classFile => do pure (.definition ⟨← D.readClass e, e.place⟩)
      | .archive => pure (.container .archive e.place (.archive e none))
      | .androidLibrary =>
        pure (.container .androidLibrary e.place (.archive e (some libraryClasses)))
      | .dalvik => pure (.container .dalvik e.place (.dalvik e))
      | .unknown => pure (.unrecognized e.name) := by
  unfold decode
  simp only [hkind]
  cases kind <;> rfl

/-- A class file that can be read is found at its own place. -/
theorem decode_of_read {bytes : Bytes} {d : ClassDefinition}
    (hkind : EntryKind.ofName e.name = .classFile)
    (hsize : e.checkSize D.maxEntrySize s = .ok () s) (hneed : e.need s = .ok bytes s')
    (hread : ClassFile.read bytes = .ok d) :
    D.decode e s = .ok (.definition ⟨d, e.place⟩) s' := by
  rw [decode_of_kind hkind]
  simp only [readClass, work_bind_apply, hsize, hneed, hread]
  rfl

/-- What an entry can turn out to be: something at its own place, as the kind of its name says. -/
inductive TurnsOut (e : Entry) : Walk.Decoded Container → Prop
  | definition (d : ClassDefinition) :
    EntryKind.ofName e.name = .classFile → TurnsOut e (.definition ⟨d, e.place⟩)
  | archive :
    EntryKind.ofName e.name = .archive →
    TurnsOut e (.container .archive e.place (.archive e none))
  | androidLibrary :
    EntryKind.ofName e.name = .androidLibrary →
    TurnsOut e (.container .androidLibrary e.place (.archive e (some libraryClasses)))
  | dalvik :
    EntryKind.ofName e.name = .dalvik → TurnsOut e (.container .dalvik e.place (.dalvik e))
  | unrecognized : EntryKind.ofName e.name = .unknown → TurnsOut e (.unrecognized e.name)

theorem turnsOut_of_decode {decoded : Walk.Decoded Container} (h : D.decode e s = .ok decoded s') :
    TurnsOut e decoded := by
  cases hkind : EntryKind.ofName e.name with
  | classFile =>
    rw [decode_of_kind hkind] at h
    obtain ⟨d, s₁, -, hd⟩ := work_bind_eq_ok_iff.1 h
    cases hd
    exact .definition d hkind
  | archive =>
    rw [decode_of_kind hkind] at h
    cases h
    exact .archive hkind
  | androidLibrary =>
    rw [decode_of_kind hkind] at h
    cases h
    exact .androidLibrary hkind
  | dalvik =>
    rw [decode_of_kind hkind] at h
    cases h
    exact .dalvik hkind
  | unknown =>
    rw [decode_of_kind hkind] at h
    cases h
    exact .unrecognized hkind

/-! ## Containers -/

/-- Entering reads nothing: an archive is entered as it is, a Dalvik file once its size is known to
be allowed. -/
theorem enter_eq_ok {c : Container} {p : Position} (h : D.enter c s = .ok p s') :
    (∃ e only, c = .archive e only ∧ p = .archiveStart e only) ∨
      ∃ e, c = .dalvik e ∧ p = .dalvikStart e ∧ e.checkSize D.maxEntrySize s = .ok () s' := by
  cases c with
  | archive e only =>
    cases h
    exact .inl ⟨e, only, rfl, rfl⟩
  | dalvik e =>
    obtain ⟨⟨⟩, s₁, hsize, hp⟩ := work_bind_eq_ok_iff.1 h
    cases hp
    exact .inr ⟨e, rfl, rfl, hsize⟩

theorem pullMember_eq_some {source : Zip.Source} {place : Provenance} {only : Option Text}
    {records : List Zip.Record} {p : Position}
    (h : pullMember D source place only records s = .ok (some (x, p)) s') :
    ∃ r left, x = memberEntry D source place r ∧ p = .archive source place only left := by
  induction records with
  | nil => cases h
  | cons r records ih =>
    unfold pullMember at h
    cases hdirectory : r.isDirectory? with
    | none => rw [hdirectory] at h; cases h
    | some isDirectory =>
      rw [hdirectory] at h
      cases isDirectory with
      | true => exact ih h
      | false =>
        by_cases hname : only.all (· = r.name) = true
        · simp only [if_pos hname] at h
          cases h
          exact ⟨r, records, rfl, rfl⟩
        · simp only [if_neg hname] at h
          exact ih h

theorem pullConverted_eq_some {place : Provenance} {names : List Text} {p : Position}
    (h : pullConverted place names s = .ok (some (x, p)) s') :
    ∃ name left, x = Dalvik.Conversion.entry s.scratch place name ∧ p = .converted place left := by
  cases names with
  | nil =>
    simp only [pullConverted] at h
    split at h
    · cases h
    · cases h
  | cons name left =>
    cases h
    exact ⟨name, left, rfl, rfl⟩

/-! ## Properties of work -/

/-- A property of work that holds of what is done at once and of needing an entry, and of one part
of work after another. -/
structure Composed (P : ∀ {α : Type}, Work α → Prop) : Prop where
  pure : ∀ {α : Type} (a : α), P (pure a : Work α)
  throw : ∀ {α : Type} (trouble : Trouble), P (throw trouble : Work α)
  bind : ∀ {α β : Type} {work : Work α} {f : α → Work β},
    P work → (∀ a, P (f a)) → P (work >>= f)
  need : ∀ e : Entry, P e.need

namespace Composed

variable {P : ∀ {α : Type}, Work α → Prop}

theorem checkSize (h : Composed P) (e : Entry) (limit : Limit) : P (e.checkSize limit) := by
  unfold Entry.checkSize
  split
  · exact h.pure ()
  · exact h.throw _
  · split
    · exact h.throw _
    · exact h.pure ()

theorem readClass (h : Composed P) (D : Decoding) (e : Entry) : P (D.readClass e) := by
  refine h.bind (h.checkSize e D.maxEntrySize) fun _ => h.bind (h.need e) fun bytes => ?_
  split
  · exact h.pure _
  · exact h.throw _

theorem decode (h : Composed P) (D : Decoding) (e : Entry) : P (D.decode e) := by
  unfold Decoding.decode
  cases EntryKind.ofName e.name with
  | classFile => exact h.bind (h.readClass D e) fun _ => h.pure _
  | _ => exact h.pure _

theorem enter (h : Composed P) (D : Decoding) (c : Container) : P (D.enter c) := by
  cases c with
  | archive e only => exact h.pure _
  | dalvik e => exact h.bind (h.checkSize e D.maxEntrySize) fun _ => h.pure _

theorem pullMember (h : Composed P) (D : Decoding) (source : Zip.Source) (place : Provenance)
    (only : Option Text) (records : List Zip.Record) :
    P (Decoding.pullMember D source place only records) := by
  induction records with
  | nil => exact h.pure _
  | cons r records ih =>
    unfold Decoding.pullMember
    split
    · exact h.throw _
    · exact ih
    · split
      · exact h.pure _
      · exact ih

/-- The first pull from an archive reads its directory. -/
theorem pull_archiveStart (h : Composed P) (D : Decoding) (e : Entry) (only : Option Text) :
    P (D.pull (.archiveStart e only)) := by
  refine h.bind (h.checkSize e D.maxEntrySize) fun _ => h.bind (h.need e) fun bytes => ?_
  simp only
  split
  · exact h.pullMember ..
  · exact h.throw _

end Composed

end JndiScan.Decoding
