/-
Walks through a file system that is listed in another order. Decoding asks for paths alone, and the
roots of a walk are sorted, so a walk meets the same in both.
-/
import JndiScan.Load
import JndiScan.Proofs.Container
import JndiScan.Proofs.Dalvik.Directory
import JndiScan.Proofs.Files.Listed
import JndiScan.Proofs.Files.Relisting
import JndiScan.Proofs.Text.Order
import JndiScan.Proofs.Walk.Related

namespace JndiScan

/-- The sessions work on one file system, listed in two orders. -/
structure Session.Reordered (s s' : Session) : Prop where
  host : s.host.Reordered s'.host
  scratch : s'.scratch = s.scratch
  opened : s'.opened = s.opened

/-- Work that comes to the same in both listings. -/
def Unordered (work : Work α) : Prop :=
  ∀ ⦃s s' : Session⦄, s.Reordered s' → Alike Session.Reordered (fun _ => True) (work s) (work s')

/-! ## Conversions -/

namespace Dalvik.Conversion

variable {host host' : Host}

theorem placeOf_eq (h : host.Reordered host') (directory : List Text) (d : ClassDefinition) :
    placeOf directory d host' = placeOf directory d host := by
  unfold placeOf
  rw [h.resolve_eq]

theorem writeClass_alike (h : host.Reordered host') (directory : List Text) (d : ClassDefinition) :
    Alike Host.Reordered (fun _ => True) (writeClass directory d host)
      (writeClass directory d host') := by
  refine (h.ask (placeOf_eq h directory d)).bind fun place _ _ _ h => ?_
  refine ((h.makeDirectories _).adaptExcept _).bind fun _ _ _ _ h => ?_
  have hoctets : Alike Host.Reordered (fun _ => True)
      (Host.ask (fun _ => (ClassFile.write d).mapError ClassFault.unwritable) _)
      (Host.ask (fun _ => (ClassFile.write d).mapError ClassFault.unwritable) _) := h.ask rfl
  exact hoctets.bind fun octets _ _ _ h => (h.change (h.write _ octets)).adaptExcept _

theorem writeClasses_alike (h : host.Reordered host') (directory : List Text)
    (ds : List ClassDefinition) :
    Alike Host.Reordered (fun _ => True) (writeClasses directory ds host)
      (writeClasses directory ds host') := by
  induction ds generalizing host host' with
  | nil => exact .ok trivial h
  | cons d ds ih => exact (writeClass_alike h directory d).bind fun _ _ _ _ h => ih h

variable {s s' : Session}

theorem removeFault?_eq (h : s.Reordered s') : removeFault? s' = removeFault? s := by
  rw [removeFault?, removeFault?, h.scratch, h.host.canRemove_eq]

theorem remove_reordered (h : s.Reordered s') : (remove s).Reordered (remove s') := by
  rw [remove, remove, h.scratch, h.host.canRemove_eq]
  split
  · exact ⟨h.host.remove s.scratch, rfl, h.opened⟩
  · exact h

theorem troubleAfter_eq (h : s.Reordered s') (trouble : Trouble) :
    troubleAfter trouble s' = troubleAfter trouble s := by
  rw [troubleAfter, troubleAfter, removeFault?_eq h]

end Dalvik.Conversion

/-! ## Work -/

theorem Entry.content_eq {host host' : Host} (h : host.Reordered host') (e : Entry) :
    e.content host' = e.content host := by
  unfold Entry.content
  cases e.payload with
  | file path => simp only [h.read_eq]
  | member archive record => rfl
  | given content => cases content <;> rfl

namespace Unordered

theorem pure (x : α) : Unordered (pure x : Work α) := fun _ _ h => .ok trivial h

theorem throw (trouble : Trouble) : Unordered (throw trouble : Work α) := fun _ _ h => .error h

theorem bind {work : Work α} (h : Unordered work) {f : α → Work β} (hf : ∀ x, Unordered (f x)) :
    Unordered (work >>= f) := by
  intro s s' hs
  rw [work_bind_apply, work_bind_apply]
  have hwork := h hs
  generalize work s = r, work s' = r' at hwork
  cases hwork with
  | ok _ hs₁ => exact hf _ hs₁
  | error hs₁ => exact .error hs₁

theorem need (e : Entry) : Unordered e.need := by
  intro s s' hs
  unfold Entry.need Entry.read
  rw [e.content_eq hs.host]
  have hopened : Session.Reordered { s with opened := e.place :: s.opened }
      { s' with opened := e.place :: s'.opened } :=
    ⟨hs.host, hs.scratch, congrArg (e.place :: ·) hs.opened⟩
  cases e.content s.host with
  | ok bytes => exact .ok trivial hopened
  | error fault => exact .error hopened

theorem composed : Decoding.Composed Unordered where
  pure x := pure x
  throw trouble := throw trouble
  bind h hf := bind h hf
  need := need

theorem pullConverted (place : Provenance) (left : List Text) :
    Unordered (Decoding.pullConverted place left) := by
  intro s s' hs
  cases left with
  | nil =>
    have hremoved := Dalvik.Conversion.remove_reordered hs
    unfold Decoding.pullConverted
    simp only [Dalvik.Conversion.removeFault?_eq hs]
    split
    · exact .ok trivial hremoved
    · exact .error hremoved
  | cons name left =>
    unfold Decoding.pullConverted
    simp only [hs.scratch]
    exact .ok trivial hs

theorem definitions (readClasses : Dalvik.ClassReader) (e : Entry) :
    Unordered (Dalvik.Conversion.definitions readClasses e) := by
  intro s s' hs
  unfold Dalvik.Conversion.definitions Entry.read
  rw [e.content_eq hs.host]
  have hopened : Session.Reordered { s with opened := e.place :: s.opened }
      { s' with opened := e.place :: s'.opened } :=
    ⟨hs.host, hs.scratch, congrArg (e.place :: ·) hs.opened⟩
  cases e.content s.host with
  | error fault => exact .error hopened
  | ok bytes =>
    simp only
    cases readClasses bytes with
    | error fault => exact .error hopened
    | ok classes => exact .ok trivial hopened

theorem start (readClasses : Dalvik.ClassReader) (e : Entry) :
    Unordered (Dalvik.Conversion.start readClasses e) := by
  intro s s' hs
  unfold Dalvik.Conversion.start
  have hbegun : Session.Reordered { s with host := s.host.put (.directory []) s.scratch }
      { s' with host := s'.host.put (.directory []) s'.scratch } :=
    ⟨by rw [hs.scratch]; exact hs.host.put .empty s.scratch, hs.scratch,
      hs.opened⟩
  have hread := definitions readClasses e hbegun
  simp only
  generalize Dalvik.Conversion.definitions readClasses e { s with host := _ } = r,
    Dalvik.Conversion.definitions readClasses e { s' with host := _ } = r' at hread
  cases hread with
  | error hs₁ =>
    simp only [Dalvik.Conversion.troubleAfter_eq hs₁]
    exact .error (Dalvik.Conversion.remove_reordered hs₁)
  | @ok ds s₁ s₁' _ hs₁ =>
    have hwritten := Dalvik.Conversion.writeClasses_alike hs₁.host s₁.scratch ds
    have hscratch := hs₁.scratch
    simp only [hscratch]
    generalize Dalvik.Conversion.writeClasses s₁.scratch ds s₁.host = c,
      Dalvik.Conversion.writeClasses s₁.scratch ds s₁'.host = c' at hwritten
    cases hwritten with
    | ok _ hhost => exact .ok trivial ⟨hhost, rfl, hs₁.opened⟩
    | @error fault host host' hhost =>
      have hs₂ : Session.Reordered { s₁ with host }
          { s₁' with host := host', scratch := s₁.scratch } := ⟨hhost, rfl, hs₁.opened⟩
      simp only [Dalvik.Conversion.troubleAfter_eq hs₂]
      exact .error (Dalvik.Conversion.remove_reordered hs₂)

theorem pull (D : Decoding) (p : Position) : Unordered (D.pull p) := by
  cases p with
  | archive source place only left => exact composed.pullMember D source place only left
  | archiveStart e only => exact composed.pull_archiveStart D e only
  | dalvikStart e => exact (start D.readDalvik e).bind fun _ => pullConverted ..
  | converted place left => exact pullConverted place left

end Unordered

namespace Decoding

/-- Entries are decoded alike in both listings. -/
theorem related_reordered (D : Decoding) :
    D.decoder.Related Session.Reordered (fun _ => True) (fun _ => True) D.decoder where
  placeOf _ := rfl
  decode e _ _ hs := (Unordered.composed.decode D e hs).mono fun _ _ _ _ _ _ => trivial
  enter _ hs := Unordered.composed.enter D _ hs
  pull _ hs := (Unordered.pull D _ hs).mono fun _ _ _ _ => trivial
  close {p _ _} _ hs := by
    cases p with
    | converted place left => exact Dalvik.Conversion.remove_reordered hs
    | _ => exact hs
  closeFault? {p _ _} _ hs := by
    cases p with
    | converted place left => exact Dalvik.Conversion.removeFault?_eq hs
    | _ => rfl

end Decoding

end JndiScan
