/-
What the counts of a class file leave room for. Each text of a definition is one constant, and each
class that it names is another one. As long as these, the interfaces and the members can be counted
in sixteen bits, nothing but a text that is too long keeps the definition from being written: the
constants entered so far are always some of those, so no number of a constant is too large. So a
definition that is refused has a text that is too long, or more parts than can be counted.
-/
import JndiScan.Proofs.ClassFile.Writing
import Mathlib.Data.List.Dedup
import Mathlib.Data.List.Perm.Subperm

namespace JndiScan

namespace ClassDefinition

/-- The classes that a class file of the definition tells by their names. -/
def classNames (d : ClassDefinition) : List Text :=
  d.name :: ((d.superName.filter fun s => !s.isEmpty).toList ++ d.interfaces)

/-- The texts of a class file of the definition. -/
def texts (d : ClassDefinition) : List Text :=
  d.classNames ++ d.members.flatMap fun m => [m.name, m.descriptor]

theorem mem_texts_of_mem_classNames {d : ClassDefinition} {t : Text} (h : t ∈ d.classNames) :
    t ∈ d.texts :=
  List.mem_append_left _ h

theorem mem_texts_of_mem_members {d : ClassDefinition} {m : Member} (h : m ∈ d.members) :
    m.name ∈ d.texts ∧ m.descriptor ∈ d.texts :=
  ⟨List.mem_append_right _ (List.mem_flatMap.2 ⟨m, h, by simp⟩),
    List.mem_append_right _ (List.mem_flatMap.2 ⟨m, h, by simp⟩)⟩

end ClassDefinition

namespace ClassFile

/-- The constants, the interfaces and the members of a definition can be counted in sixteen bits. -/
structure Fits (d : ClassDefinition) : Prop where
  constants : d.texts.dedup.length + d.classNames.dedup.length < 0xFFFF
  interfaces : d.interfaces.length ≤ 0xFFFF
  fields : d.fields.length ≤ 0xFFFF
  methods : d.methods.length ≤ 0xFFFF

/-- The constants entered so far are of texts and classes of the definition, one of each. -/
structure Within (d : ClassDefinition) (cs : Constants) : Prop where
  count : cs.count = cs.texts.size + cs.classes.size
  texts : ∀ t ∈ cs.texts, t ∈ d.texts
  classes : ∀ t ∈ cs.classes, t ∈ d.classNames
  numbers : ∀ (t : Text) (n : Nat), cs.texts[t]? = some n ∨ cs.classes[t]? = some n → n ≤ cs.count

variable {d : ClassDefinition} {cs : Constants} {t : Text}

/-- A table has no more keys than there are different ones. -/
theorem size_le_of_forall_mem {m : Std.HashMap Text Nat} {ts : List Text} (h : ∀ t ∈ m, t ∈ ts) :
    m.size ≤ ts.dedup.length := by
  rw [← Std.HashMap.length_keys]
  refine (List.subperm_of_subset Std.HashMap.nodup_keys fun t ht => ?_).length_le
  exact List.mem_dedup.2 (h t (Std.HashMap.mem_keys.1 ht))

theorem size_insert_of_none {m : Std.HashMap Text Nat} (h : m[t]? = none) (n : Nat) :
    (m.insert t n).size = m.size + 1 := by
  rw [Std.HashMap.size_insert, if_neg]
  simp [Std.HashMap.mem_iff_isSome_getElem?, h]

namespace Within

theorem empty (d : ClassDefinition) : Within d {} where
  count := rfl
  texts := by simp
  classes := by simp
  numbers := by simp

theorem count_le (h : Within d cs) :
    cs.count ≤ d.texts.dedup.length + d.classNames.dedup.length := by
  have htexts := size_le_of_forall_mem h.texts
  have hclasses := size_le_of_forall_mem h.classes
  rw [h.count]
  omega

theorem count_lt (h : Within d cs) (hd : Fits d) : cs.count < 0xFFFF :=
  Nat.lt_of_le_of_lt h.count_le hd.constants

theorem insert_text (h : Within d cs) (ht : t ∈ d.texts) (hnew : cs.texts[t]? = none)
    (entry : Bytes) :
    Within d { cs with
      entries := entry :: cs.entries
      count := cs.count + 1
      texts := cs.texts.insert t (cs.count + 1) } where
  count := by
    simp only [size_insert_of_none hnew, h.count]
    omega
  texts u hu := by
    rcases Std.HashMap.mem_insert.1 hu with heq | hold
    · rwa [← eq_of_beq heq]
    · exact h.texts u hold
  classes := h.classes
  numbers u n hn := by
    simp only [Std.HashMap.getElem?_insert] at hn
    split at hn
    · rcases hn with hn | hn
      · cases hn
        exact Nat.le_refl _
      · exact Nat.le_succ_of_le (h.numbers u n (.inr hn))
    · exact Nat.le_succ_of_le (h.numbers u n hn)

theorem insert_class (h : Within d cs) (ht : t ∈ d.classNames) (hnew : cs.classes[t]? = none)
    (entry : Bytes) :
    Within d { cs with
      entries := entry :: cs.entries
      count := cs.count + 1
      classes := cs.classes.insert t (cs.count + 1) } where
  count := by
    simp only [size_insert_of_none hnew, h.count]
    omega
  texts := h.texts
  classes u hu := by
    rcases Std.HashMap.mem_insert.1 hu with heq | hold
    · rwa [← eq_of_beq heq]
    · exact h.classes u hold
  numbers u n hn := by
    simp only [Std.HashMap.getElem?_insert] at hn
    split at hn
    · rcases hn with hn | hn
      · exact Nat.le_succ_of_le (h.numbers u n (.inl hn))
      · cases hn
        exact Nat.le_refl _
    · exact Nat.le_succ_of_le (h.numbers u n hn)

end Within

/-- Why a definition is not written: a text of it is too long, or its parts cannot be counted. -/
inductive Refused (d : ClassDefinition) : WriteError → Prop
  | tooLong {t : Text} : t ∈ d.texts → 0xFFFF < (constantOctets t).length →
    Refused d (.constantTooLong t)
  | uncounted : ¬ Fits d → Refused d .overflow

/-- A step enters constants of the definition alone, or it fails for a reason that the definition
gives. -/
def Stays (d : ClassDefinition) (w : Writer α) (P : α → Prop) : Prop :=
  ∀ cs, Within d cs →
    match w cs with
    | .ok (x, cs') => Within d cs' ∧ P x
    | .error error => Refused d error

/-- A text leaves the classes entered as they are. -/
theorem classes_textNumber {cs' : Constants} {n : Nat}
    (h : textNumber t cs = .ok (n, cs')) : cs'.classes = cs.classes := by
  rw [textNumber] at h
  split at h
  · cases h
    rfl
  · simp only at h
    split at h
    · cases h
    · cases h
      rfl

namespace Stays

variable {w : Writer α} {P : α → Prop}

theorem pure {x : α} (h : P x) : Stays d (pure x : Writer α) P := fun _ hcs => ⟨hcs, h⟩

theorem bind {f : α → Writer β} {Q : β → Prop} (hw : Stays d w P)
    (hf : ∀ x, P x → Stays d (f x) Q) : Stays d (w >>= f) Q := by
  intro cs hcs
  have hfirst := hw cs hcs
  rw [bind_apply]
  cases hx : w cs with
  | error error =>
    rw [hx] at hfirst
    exact hfirst
  | ok result =>
    rw [hx] at hfirst
    exact hf result.1 hfirst.2 result.2 hfirst.1

theorem field16 {n : Nat} (h : Fits d → n ≤ 0xFFFF) :
    Stays d (liftM (field16 n) : Writer Bytes) fun _ => True := by
  intro cs hcs
  rw [liftM_apply, ClassFile.field16]
  by_cases hn : n ≤ 0xFFFF
  · rw [if_pos hn]
    exact ⟨hcs, trivial⟩
  · rw [if_neg hn]
    exact .uncounted fun hd => hn (h hd)

theorem textNumber (ht : t ∈ d.texts) :
    Stays d (textNumber t) fun n => Fits d → n ≤ 0xFFFF := by
  intro cs hcs
  rw [ClassFile.textNumber]
  cases hfound : cs.texts[t]? with
  | some n =>
    have hle := hcs.numbers t n (.inl hfound)
    exact ⟨hcs, fun hd => Nat.le_trans hle (Nat.le_of_lt (hcs.count_lt hd))⟩
  | none =>
    by_cases hlong : (constantOctets t).length > 0xFFFF
    · simp only [hlong, if_true]
      exact .tooLong ht hlong
    · simp only [hlong, if_false]
      exact ⟨hcs.insert_text ht hfound _, hcs.count_lt⟩

theorem classNumber (ht : t ∈ d.classNames) :
    Stays d (classNumber t) fun n => Fits d → n ≤ 0xFFFF := by
  intro cs hcs
  rw [ClassFile.classNumber]
  simp only [bind_apply, get_apply]
  cases hfound : cs.classes[t]? with
  | some n =>
    have hle := hcs.numbers t n (.inr hfound)
    exact ⟨hcs, fun hd => Nat.le_trans hle (Nat.le_of_lt (hcs.count_lt hd))⟩
  | none =>
    have hname := textNumber (ClassDefinition.mem_texts_of_mem_classNames ht) cs hcs
    simp only [bind_apply]
    cases hx : ClassFile.textNumber t cs with
    | error error =>
      rw [hx] at hname
      exact hname
    | ok result =>
      obtain ⟨n, cs'⟩ := result
      rw [hx] at hname
      obtain ⟨hcs', hn⟩ := hname
      have hfield := field16 hn cs' hcs'
      have hnew : cs'.classes[t]? = none := by rw [classes_textNumber hx, hfound]
      simp only
      cases hy : (liftM (ClassFile.field16 n) : Writer Bytes) cs' with
      | error error =>
        rw [hy] at hfield
        exact hfield
      | ok field =>
        obtain ⟨-, -, hsame⟩ := field16_eq_ok_iff.1 hy
        simp only [modifyGet_apply, hsame]
        exact ⟨hcs'.insert_class ht hnew _, hcs'.count_lt⟩

/-- Steps on each item of a list give as many results. -/
theorem eachFrom {step : α → Writer β} {Q : β → Prop} (xs : List α)
    (hstep : ∀ x ∈ xs, Stays d (step x) Q) {done : Array β} (hdone : ∀ y ∈ done, Q y) :
    Stays d (eachFrom step done xs) fun ys => ys.size = done.size + xs.length ∧ ∀ y ∈ ys, Q y := by
  induction xs generalizing done with
  | nil => exact pure ⟨rfl, hdone⟩
  | cons x xs ih =>
    refine (hstep x (List.mem_cons_self ..)).bind fun y hy => ?_
    have hpushed : ∀ z ∈ done.push y, Q z := by
      intro z hz
      rcases Array.mem_push.1 hz with hz | rfl
      · exact hdone z hz
      · exact hy
    have hsize : done.size + (x :: xs).length = (done.push y).size + xs.length := by
      rw [Array.size_push, List.length_cons]
      omega
    rw [hsize]
    exact ih (fun x hx => hstep x (List.mem_cons_of_mem _ hx)) hpushed

theorem writeMember {m : Member} (hm : m ∈ d.members) :
    Stays d (writeMember m) fun _ => True := by
  obtain ⟨hname, hdescriptor⟩ := ClassDefinition.mem_texts_of_mem_members hm
  refine (textNumber hname).bind fun n hn => ?_
  refine (textNumber hdescriptor).bind fun k hk => ?_
  exact (field16 hn).bind fun _ _ => (field16 hk).bind fun _ _ => pure trivial

theorem writeMembers {ms : List Member} (hms : ∀ m ∈ ms, m ∈ d.members)
    (hlength : Fits d → ms.length ≤ 0xFFFF) : Stays d (writeMembers ms) fun _ => True := by
  refine (field16 hlength).bind fun _ _ => ?_
  refine (eachFrom ms (fun m hm => writeMember (hms m hm)) (by simp)).bind fun _ _ => ?_
  exact pure trivial

theorem superNumber (d : ClassDefinition) :
    Stays d (superNumber d.superName) fun n => Fits d → n ≤ 0xFFFF := by
  unfold ClassFile.superNumber
  split
  · exact pure fun _ => Nat.zero_le _
  · next name hname =>
    split
    · exact pure fun _ => Nat.zero_le _
    · next hne =>
      refine classNumber ?_
      simp [ClassDefinition.classNames, hname, hne]

theorem mapM_field16 (ns : List Nat) (hns : ∀ n ∈ ns, Fits d → n ≤ 0xFFFF) :
    Stays d (ns.mapM fun n => (liftM (ClassFile.field16 n) : Writer Bytes)) fun _ => True := by
  induction ns with
  | nil => exact pure trivial
  | cons n ns ih =>
    rw [List.mapM_cons]
    refine (field16 (hns n (List.mem_cons_self ..))).bind fun _ _ => ?_
    exact (ih fun n hn => hns n (List.mem_cons_of_mem _ hn)).bind fun _ _ => pure trivial

theorem get (d : ClassDefinition) :
    Stays d (get : Writer Constants) fun cs => Fits d → cs.count + 1 ≤ 0xFFFF :=
  fun _ hcs => ⟨hcs, hcs.count_lt⟩

theorem writeClass (d : ClassDefinition) : Stays d (writeClass d) fun _ => True := by
  have hname : d.name ∈ d.classNames := List.mem_cons_self ..
  have hinterfaces : ∀ t ∈ d.interfaces, t ∈ d.classNames := fun t ht =>
    List.mem_cons_of_mem _ (List.mem_append_right _ ht)
  refine (classNumber hname).bind fun this hthis => ?_
  refine (superNumber d).bind fun super hsuper => ?_
  refine (eachFrom d.interfaces (fun t ht => classNumber (hinterfaces t ht))
    (by simp)).bind fun numbers hnumbers => ?_
  refine (writeMembers (fun m hm => (List.mem_filter.1 hm).1) Fits.fields).bind fun _ _ => ?_
  refine (writeMembers (fun m hm => (List.mem_filter.1 hm).1) Fits.methods).bind fun _ _ => ?_
  refine (get d).bind fun cs hcount => ?_
  refine (field16 hcount).bind fun _ _ => (field16 hthis).bind fun _ _ => ?_
  refine (field16 hsuper).bind fun _ _ => (field16 fun hd => ?_).bind fun _ _ => ?_
  · simpa [hnumbers.1] using hd.interfaces
  · exact (mapM_field16 _ fun n hn => hnumbers.2 n (by simpa using hn)).bind fun _ _ => pure trivial

end Stays

/-- A definition is not written only for a reason that it gives. -/
theorem refused_of_write_eq_error {error : WriteError} (h : write d = .error error) :
    Refused d error := by
  have hstays := Stays.writeClass d {} (Within.empty d)
  rw [write] at h
  cases hx : writeClass d {} with
  | ok result => rw [hx] at h; cases h
  | error reason =>
    rw [hx] at h hstays
    cases h
    exact hstays

/-- A definition whose parts can be counted is written, unless one of its texts is too long. -/
theorem write_of_fits (hd : Fits d) : (∃ octets, write d = .ok octets) ∨
    ∃ t ∈ d.texts, 0xFFFF < (constantOctets t).length ∧ write d = .error (.constantTooLong t) := by
  cases hwrite : write d with
  | ok octets => exact .inl ⟨octets, rfl⟩
  | error error =>
    cases refused_of_write_eq_error hwrite with
    | tooLong ht hlong => exact .inr ⟨_, ht, hlong, rfl⟩
    | uncounted hnot => exact absurd hd hnot

end ClassFile

end JndiScan
