/-
What a class file has room for, and what it then holds. A definition is written exactly when each of
its texts fits into a constant, and its constants, interfaces and members can be counted. The pool
then holds each text of the definition once, each class that it names once, and nothing else: all of
them have to be there because the class refers to them, and there is no room left for others,
because no more than these are entered.
-/
import JndiScan.Proofs.ClassFile.Limits
import JndiScan.Proofs.ClassFile.RoundTrip

namespace JndiScan.ClassFile

/-! ## What a pool holds -/

/-- The text of a text constant. -/
def Slot.text? : Slot → Option Text
  | text t => some t
  | classRef _ | other => none

namespace ConstantPool

/-- The name of a class constant, which is a text constant of the pool. -/
def nameOf? (pool : ConstantPool) : Slot → Option Text
  | .classRef nameIndex => pool[nameIndex]? >>= Slot.text?
  | .text _ | .other => none

/-- The texts of the text constants of a pool, in the order of their numbers. -/
def texts (pool : ConstantPool) : List Text := pool.toList.filterMap Slot.text?

/-- The names of the class constants of a pool, in the order of their numbers. -/
def classNames (pool : ConstantPool) : List Text := pool.toList.filterMap pool.nameOf?

end ConstantPool

theorem toList_poolOf (slots : List Slot) : (poolOf slots).toList = .other :: slots := by
  simp [poolOf]

theorem size_poolOf (slots : List Slot) : (poolOf slots).size = 1 + slots.length := by
  rw [poolOf, Array.size_append, List.size_toArray, List.size_toArray, List.length_singleton]

/-- No constant is told twice. -/
theorem length_texts_add_classNames_le (slots : List Slot) :
    (poolOf slots).texts.length + (poolOf slots).classNames.length ≤ slots.length := by
  have hcount : ∀ part : List Slot,
      (part.filterMap Slot.text?).length + (part.filterMap (poolOf slots).nameOf?).length ≤
        part.length := by
    intro part
    induction part with
    | nil => exact Nat.le_refl _
    | cons slot part ih =>
      cases slot with
      | text t =>
        rw [List.filterMap_cons_some (show Slot.text? (.text t) = some t from rfl),
          List.filterMap_cons_none rfl]
        simp only [List.length_cons]
        omega
      | other =>
        rw [List.filterMap_cons_none rfl, List.filterMap_cons_none rfl]
        exact Nat.le_succ_of_le ih
      | classRef nameIndex =>
        rw [List.filterMap_cons_none rfl, List.filterMap_cons]
        split <;> simp only [List.length_cons] <;> omega
  rw [ConstantPool.texts, ConstantPool.classNames, toList_poolOf, List.filterMap_cons_none rfl,
    List.filterMap_cons_none rfl]
  exact hcount slots

section Members

variable {slots : List Slot} {index : Nat} {t : Text}

theorem HasText.mem (h : HasText slots index t) : .text t ∈ slots :=
  (List.mem_cons.1 (List.mem_of_getElem? h)).resolve_left Slot.noConfusion

theorem HasText.mem_texts (h : HasText slots index t) : t ∈ (poolOf slots).texts :=
  List.mem_filterMap.2 ⟨.text t, by rw [toList_poolOf]; exact List.mem_of_getElem? h, rfl⟩

theorem HasClass.mem_classNames (h : HasClass slots index t) : t ∈ (poolOf slots).classNames := by
  obtain ⟨nameIndex, hclass, htext⟩ := h
  refine List.mem_filterMap.2 ⟨.classRef nameIndex, ?_, ?_⟩
  · rw [toList_poolOf]
    exact List.mem_of_getElem? hclass
  · rw [ConstantPool.nameOf?, getElem?_poolOf, show (.other :: slots)[nameIndex]? = _ from htext]
    rfl

theorem HasClass.exists_hasText (h : HasClass slots index t) : ∃ n, HasText slots n t := by
  obtain ⟨nameIndex, -, htext⟩ := h
  exact ⟨nameIndex, htext⟩

end Members

/-! ## What a class refers to -/

section Refers

variable {d : ClassDefinition} {slots : List Slot} {this super : Nat} {interfaces : List Nat}
variable {fields methods : Bytes}

theorem exists_of_forall₂ {R : α → β → Prop} {xs : List α} {ys : List β}
    (h : List.Forall₂ R xs ys) {x : α} (hx : x ∈ xs) : ∃ y, R x y := by
  induction h with
  | nil => cases hx
  | cons hfirst _ ih =>
    rcases List.mem_cons.1 hx with rfl | hx
    · exact ⟨_, hfirst⟩
    · exact ih hx

theorem WritesMembers.exists_hasText {ms : List Member} {bs : Bytes}
    (h : WritesMembers slots ms bs) {m : Member} (hm : m ∈ ms) :
    (∃ n, HasText slots n m.name) ∧ ∃ n, HasText slots n m.descriptor := by
  obtain ⟨-, pieces, hpieces, -⟩ := h
  obtain ⟨piece, name, descriptor, -, -, hname, hdescriptor, -⟩ := exists_of_forall₂ hpieces hm
  exact ⟨⟨name, hname⟩, descriptor, hdescriptor⟩

namespace WritesClass

/-- Every class that a definition names has a constant. -/
theorem exists_hasClass (h : WritesClass slots d this super interfaces fields methods) {t : Text}
    (ht : t ∈ d.classNames) : ∃ n, HasClass slots n t := by
  rcases List.mem_cons.1 ht with rfl | ht
  · exact ⟨this, h.this_class⟩
  rcases List.mem_append.1 ht with ht | ht
  · have hsuper := h.super_class
    rw [show d.readAgain.superName = some t from Option.mem_toList.1 ht] at hsuper
    exact ⟨super, hsuper⟩
  · exact exists_of_forall₂ h.interfaces_class ht

/-- Every text of a definition has a constant. -/
theorem exists_hasText (h : WritesClass slots d this super interfaces fields methods) {t : Text}
    (ht : t ∈ d.texts) : ∃ n, HasText slots n t := by
  rcases List.mem_append.1 ht with ht | ht
  · obtain ⟨n, hclass⟩ := h.exists_hasClass ht
    exact hclass.exists_hasText
  obtain ⟨m, hm, ht⟩ := List.mem_flatMap.1 ht
  have hmember : (∃ n, HasText slots n m.name) ∧ ∃ n, HasText slots n m.descriptor := by
    by_cases hkind : m.kind = .field
    · exact h.fields_members.exists_hasText (List.mem_filter.2 ⟨hm, by simpa using hkind⟩)
    · exact h.methods_members.exists_hasText (List.mem_filter.2 ⟨hm, by simpa using hkind⟩)
  rcases List.mem_cons.1 ht with rfl | ht
  · exact hmember.1
  · rw [List.mem_singleton.1 ht]
    exact hmember.2

theorem texts_subset (h : WritesClass slots d this super interfaces fields methods) :
    d.texts ⊆ (poolOf slots).texts := fun _ ht =>
  have ⟨_, htext⟩ := h.exists_hasText ht
  htext.mem_texts

theorem classNames_subset (h : WritesClass slots d this super interfaces fields methods) :
    d.classNames ⊆ (poolOf slots).classNames := fun _ ht =>
  have ⟨_, hclass⟩ := h.exists_hasClass ht
  hclass.mem_classNames

end WritesClass

end Refers

/-! ## The room there is -/

section Room

variable {d : ClassDefinition} {slots : List Slot} {this super : Nat} {interfaces : List Nat}
variable {fields methods : Bytes}

theorem length_dedup_le_of_subset {ts us : List Text} (h : ts ⊆ us) :
    ts.dedup.length ≤ us.length :=
  (List.subperm_of_subset (List.nodup_dedup ts) fun _ ht => h (List.mem_dedup.1 ht)).length_le

/-- A list without room for more than the different texts that it must hold is made of these. -/
theorem perm_dedup_of_subset {ts us : List Text} (h : ts ⊆ us)
    (hlength : us.length ≤ ts.dedup.length) : us.Perm ts.dedup :=
  ((List.subperm_of_subset (List.nodup_dedup ts)
    fun _ ht => h (List.mem_dedup.1 ht)).perm_of_length_le hlength).symm

/-- What is written had room. -/
theorem WritesClass.fits (h : WritesClass slots d this super interfaces fields methods) :
    (∀ t ∈ d.texts, (constantOctets t).length ≤ 0xFFFF) ∧ Fits d := by
  refine ⟨fun t ht => ?_, ?_⟩
  · obtain ⟨n, htext⟩ := h.exists_hasText ht
    exact h.writable _ htext.mem
  · have htexts := length_dedup_le_of_subset h.texts_subset
    have hclasses := length_dedup_le_of_subset h.classNames_subset
    have hslots := length_texts_add_classNames_le slots
    have hcount := h.count
    have hinterfaces := h.interfaces_count
    rw [← h.interfaces_class.length_eq] at hinterfaces
    exact ⟨by omega, hinterfaces, h.fields_members.1, h.methods_members.1⟩

/-- There are as many constants as different texts and classes, and so they are these. -/
theorem WritesClass.exact (h : WritesClass slots d this super interfaces fields methods)
    (hlength : slots.length ≤ d.texts.dedup.length + d.classNames.dedup.length) :
    slots.length = d.texts.dedup.length + d.classNames.dedup.length ∧
      (poolOf slots).texts.Perm d.texts.dedup ∧
      (poolOf slots).classNames.Perm d.classNames.dedup := by
  have htexts := length_dedup_le_of_subset h.texts_subset
  have hclasses := length_dedup_le_of_subset h.classNames_subset
  have hslots := length_texts_add_classNames_le slots
  exact ⟨by omega, perm_dedup_of_subset h.texts_subset (by omega),
    perm_dedup_of_subset h.classNames_subset (by omega)⟩

/-- The pool stands behind the first eight octets of a class. -/
theorem readPool_classOctets (h : WritesClass slots d this super interfaces fields methods)
    (flags : Nat) (rest : Bytes) :
    ∃ after, readPool
        ⟨8, (classOctets slots flags this super interfaces fields methods ++ rest).drop 8⟩ =
      .ok (poolOf slots, after) := by
  rw [classOctets, List.append_assoc, List.append_assoc, List.append_assoc, List.append_assoc]
  exact ⟨_, Reads.pool h.writable h.count 8 _⟩

end Room

/-- What has room is written, and what is written is no more than what there is to write. A
definition is written exactly when each of its texts takes at most 65535 octets, it has at most
65534 different texts and classes together, and its interfaces, its fields and its other members are
at most 65535 each. Then the pool holds as many constants: each of the texts once, and each of the
classes once. A definition that is refused has a text that is too long, which is told, or one of the
counts is too large. -/
theorem write_within_capacity (d : ClassDefinition) :
    ((∃ octets, write d = .ok octets) ↔
      (∀ t ∈ d.texts, (constantOctets t).length ≤ 0xFFFF) ∧ Fits d) ∧
    (∀ octets, write d = .ok octets → ∃ pool after,
      readPool ⟨8, octets.drop 8⟩ = .ok (pool, after) ∧
        pool.size = 1 + d.texts.dedup.length + d.classNames.dedup.length ∧
        pool.texts.Perm d.texts.dedup ∧ pool.classNames.Perm d.classNames.dedup) ∧
    ∀ error, write d = .error error → Refused d error := by
  refine ⟨⟨?_, ?_⟩, fun octets h => ?_, fun error => refused_of_write_eq_error⟩
  · rintro ⟨octets, h⟩
    obtain ⟨slots, this, super, interfaces, fields, methods, hwrites, -⟩ := exists_of_write_eq_ok h
    exact hwrites.fits
  · rintro ⟨hshort, hfits⟩
    rcases write_of_fits hfits with hwritten | ⟨t, ht, hlong, -⟩
    · exact hwritten
    · exact absurd (hshort t ht) (Nat.not_le.2 hlong)
  · obtain ⟨cs, hclass⟩ := writeClass_of_write_eq_ok h
    obtain ⟨slots, this, super, interfaces, fields, methods, hholds, hwrites, rfl⟩ :=
      exists_of_writeClass_eq_ok hclass
    have hstays := Stays.writeClass d {} (Within.empty d)
    rw [hclass] at hstays
    obtain ⟨hlength, htexts, hclasses⟩ := hwrites.exact (hholds.count ▸ hstays.1.count_le)
    obtain ⟨after, hpool⟩ := readPool_classOctets hwrites (Access.low16 d.accessFlags)
      (Bytes.word16 0)
    refine ⟨poolOf slots, after, hpool, ?_, htexts, hclasses⟩
    rw [size_poolOf, hlength, Nat.add_assoc]

/-- A class without a name and members that names `n` interfaces, each by one code point. -/
def crowded (n : Nat) : ClassDefinition where
  name := []
  superName := none
  members := []
  accessFlags := 0
  interfaces := (List.range n).map fun i => [CodePoint.ofNat i]

theorem texts_crowded (n : Nat) : (crowded n).texts = (crowded n).classNames :=
  List.append_nil _

theorem length_encodeOne_le (c : CodePoint) : (Text.Utf8.encodeOne c).length ≤ 4 := by
  simp only [Text.Utf8.encodeOne]
  split <;> [skip; split <;> [skip; split]] <;> simp

theorem length_pairedZeros_le (bs : Bytes) : (pairedZeros bs).length ≤ 2 * bs.length := by
  induction bs with
  | nil => exact Nat.le_refl _
  | cons b bs ih =>
    rw [pairedZeros, List.flatMap_cons, List.length_append, List.length_cons]
    rw [pairedZeros] at ih
    split <;> simp only [List.length_cons, List.length_nil] <;> omega

/-- Its texts take no more than two octets for each of the four of a code point. -/
theorem crowded_short (n : Nat) : ∀ t ∈ (crowded n).texts, (constantOctets t).length ≤ 0xFFFF := by
  intro t ht
  rw [texts_crowded] at ht
  rcases List.mem_cons.1 ht with rfl | ht
  · exact Nat.zero_le _
  · obtain ⟨i, -, rfl⟩ := List.mem_map.1 ht
    have hone : Text.toUtf8 [.ofNat i] = Text.Utf8.encodeOne (.ofNat i) :=
      List.flatMap_singleton ..
    have hfour := length_encodeOne_le (.ofNat i)
    have hlength := length_pairedZeros_le (Text.toUtf8 [.ofNat i])
    rw [hone] at hlength
    rw [constantOctets, hone]
    omega

theorem dedup_classNames_crowded {n : Nat} (hn : n ≤ 0x110000) :
    (crowded n).classNames.dedup.length = n + 1 := by
  have hnodup : (crowded n).classNames.Nodup := by
    refine List.nodup_cons.2 ⟨by simp [crowded], (List.nodup_range.map_on ?_)⟩
    intro i hi j hj heq
    have hi := List.mem_range.1 hi
    have hj := List.mem_range.1 hj
    have hsame := congrArg Fin.val (List.singleton_inj.1 heq)
    simpa [CodePoint.ofNat, Nat.lt_of_lt_of_le hi hn, Nat.lt_of_lt_of_le hj hn] using hsame
  rw [hnodup.dedup, ClassDefinition.classNames]
  simp [crowded]

/-- The constants of that class fill the pool at 32766 interfaces. One more is refused. -/
theorem write_within_capacity_crowded :
    (∃ octets, write (crowded 32766) = .ok octets) ∧
      write (crowded 32767) = .error .overflow := by
  obtain ⟨hwritten, -, -⟩ := write_within_capacity (crowded 32766)
  obtain ⟨hunwritten, -, hrefused⟩ := write_within_capacity (crowded 32767)
  refine ⟨hwritten.2 ⟨crowded_short _, ?_⟩, ?_⟩
  · refine ⟨?_, ?_, Nat.zero_le _, Nat.zero_le _⟩
    · rw [texts_crowded, dedup_classNames_crowded (by decide)]
      decide
    · simp [crowded]
  · cases hwrite : write (crowded 32767) with
    | ok octets =>
      have hconstants := (hunwritten.1 ⟨octets, hwrite⟩).2.constants
      rw [texts_crowded, dedup_classNames_crowded (by decide)] at hconstants
      exact absurd hconstants (by decide)
    | error error =>
      cases hrefused error hwrite with
      | tooLong ht hlong => exact absurd (crowded_short _ _ ht) (Nat.not_le.2 hlong)
      | uncounted _ => rfl

end JndiScan.ClassFile
