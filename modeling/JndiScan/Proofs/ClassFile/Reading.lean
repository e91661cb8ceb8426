/-
What a reader of class files makes of octets. `Reads r bs x` says that the reader takes exactly the
octets `bs`, wherever they stand and whatever follows them, and gives `x`; readers in a row take
octets in a row.
-/
import JndiScan.ClassFile.Reader
import JndiScan.Proofs.ClassFile.Constant
import Mathlib.Data.List.Forall2

namespace JndiScan

namespace Bytes

theorem bigEndian_word16 {n : Nat} (h : n ≤ 0xFFFF) : bigEndian (word16 n) = n := by
  simp [bigEndian, word16]
  omega

theorem bigEndian_word32 {n : Nat} (h : n ≤ 0xFFFFFFFF) : bigEndian (word32 n) = n := by
  simp [bigEndian, word32]
  omega

end Bytes

namespace ClassFile

/-- The reader takes exactly the octets `bs` and gives `x`. -/
def Reads (r : Reader α) (bs : Bytes) (x : α) : Prop :=
  ∀ offset rest, r ⟨offset, bs ++ rest⟩ = .ok (x, ⟨offset + bs.length, rest⟩)

namespace Reads

theorem pure (x : α) : Reads (pure x) [] x := fun _ _ => rfl

theorem bind {r : Reader α} {f : α → Reader β} {bs cs : Bytes} {x : α} {y : β}
    (hr : Reads r bs x) (hf : Reads (f x) cs y) : Reads (r >>= f) (bs ++ cs) y := by
  intro offset rest
  show (r ⟨offset, bs ++ cs ++ rest⟩).bind (fun p => f p.1 p.2) = _
  rw [List.append_assoc, hr, List.length_append, ← Nat.add_assoc]
  exact hf ..

/-- A last step that takes nothing. -/
theorem bind_last {r : Reader α} {f : α → Reader β} {bs : Bytes} {x : α} {y : β}
    (hr : Reads r bs x) (hf : Reads (f x) [] y) : Reads (r >>= f) bs y := by
  simpa using bind hr hf

/-- A first step that takes nothing. -/
theorem bind_first {r : Reader α} {f : α → Reader β} {bs : Bytes} {x : α} {y : β}
    (hr : Reads r [] x) (hf : Reads (f x) bs y) : Reads (r >>= f) bs y :=
  bind hr hf

theorem map {r : Reader α} {bs : Bytes} {x : α} (g : α → β) (hr : Reads r bs x) :
    Reads (g <$> r) bs (g x) := by
  intro offset rest
  show (r ⟨offset, bs ++ rest⟩).bind (fun p => .ok (g p.1, p.2)) = _
  rw [hr]
  rfl

theorem take (bs : Bytes) : Reads (Reader.take bs.length) bs bs := by
  intro offset rest
  simp [Reader.take]

theorem u1 (b : UInt8) : Reads Reader.u1 [b] b.toNat := by
  have h : Bytes.bigEndian [b] = b.toNat := by simp [Bytes.bigEndian]
  rw [← h]
  exact map Bytes.bigEndian (take [b])

theorem u2 {n : Nat} (h : n ≤ 0xFFFF) : Reads Reader.u2 (Bytes.word16 n) n := by
  have hr := map Bytes.bigEndian (take (Bytes.word16 n))
  rwa [Bytes.bigEndian_word16 h] at hr

theorem u4 {n : Nat} (h : n ≤ 0xFFFFFFFF) : Reads Reader.u4 (Bytes.word32 n) n := by
  have hr := map Bytes.bigEndian (take (Bytes.word32 n))
  rwa [Bytes.bigEndian_word32 h] at hr

theorem manyFrom {item : Reader α} {pieces : List Bytes} {xs : List α}
    (h : List.Forall₂ (Reads item) pieces xs) (done : Array α) :
    Reads (Reader.manyFrom item done xs.length) pieces.flatten (done ++ xs.toArray) := by
  induction h generalizing done with
  | nil => simpa [Reader.manyFrom] using pure done
  | @cons piece x pieces xs hx _ ih =>
    rw [List.length_cons, Reader.manyFrom, List.flatten_cons]
    refine bind hx ?_
    simpa using ih (done.push x)

theorem counted {item : Reader α} {pieces : List Bytes} {xs : List α}
    (hn : xs.length ≤ 0xFFFF) (h : List.Forall₂ (Reads item) pieces xs) :
    Reads (Reader.counted item) (Bytes.word16 xs.length ++ pieces.flatten) xs := by
  refine bind (u2 hn) ?_
  refine bind_last (manyFrom h #[]) ?_
  simpa using pure xs

theorem none_counted {item : Reader α} : Reads (Reader.counted item) (Bytes.word16 0) [] := by
  rw [← List.append_nil (Bytes.word16 0)]
  exact @counted α item [] [] (Nat.zero_le _) .nil

end Reads

/-! ## The constant pool -/

/-- The octets of a constant, its tag first. -/
def Slot.octets : Slot → Bytes
  | .text t => 1 :: Bytes.word16 (constantOctets t).length ++ constantOctets t
  | .classRef nameIndex => 7 :: Bytes.word16 nameIndex
  | .other => []

/-- The numbers in a constant fit into their fields. -/
def Slot.Writable : Slot → Prop
  | .text t => (constantOctets t).length ≤ 0xFFFF
  | .classRef nameIndex => nameIndex ≤ 0xFFFF
  | .other => False

/-- The text constant with a number, among constants numbered from 1 on. -/
def HasText (slots : List Slot) (index : Nat) (t : Text) : Prop :=
  (.other :: slots)[index]? = some (.text t)

/-- The name of the class constant with a number, among constants numbered from 1 on. -/
def HasClass (slots : List Slot) (index : Nat) (t : Text) : Prop :=
  ∃ nameIndex, (.other :: slots)[index]? = some (.classRef nameIndex) ∧ HasText slots nameIndex t

/-- The pool of constants numbered from 1 on. -/
def poolOf (slots : List Slot) : ConstantPool := #[.other] ++ slots.toArray

theorem getElem?_poolOf (slots : List Slot) (index : Nat) :
    (poolOf slots)[index]? = (.other :: slots)[index]? := by
  simp [poolOf]

namespace Reads

theorem slot {slot : Slot} (h : slot.Writable) (index : Nat) :
    ∃ tag body, slot.octets = tag :: body ∧ isWide tag.toNat = false ∧
      Reads (readSlot tag.toNat index) body slot := by
  cases slot with
  | text t =>
    refine ⟨1, _, rfl, rfl, ?_⟩
    rw [readSlot, if_pos (by decide)]
    refine bind (u2 h) (bind_last (take _) ?_)
    rw [constantText_constantOctets]
    exact pure _
  | classRef nameIndex =>
    refine ⟨7, _, rfl, rfl, ?_⟩
    rw [readSlot, if_neg (by decide), if_pos (by decide)]
    exact map _ (u2 h)
  | other => exact h.elim

theorem slots {slots : List Slot} (h : ∀ slot ∈ slots, slot.Writable) (pool : ConstantPool) :
    Reads (readSlots pool slots.length) (slots.map Slot.octets).flatten
      (pool ++ slots.toArray) := by
  induction slots generalizing pool with
  | nil => simpa [readSlots] using pure pool
  | cons s slots ih =>
    obtain ⟨tag, body, htag, hwide, hslot⟩ := slot (h s (List.mem_cons_self ..)) pool.size
    have hoctets : s.octets = [tag] ++ body := htag
    rw [List.length_cons, readSlots, List.map_cons, List.flatten_cons, hoctets, List.append_assoc]
    refine bind (u1 tag) (bind hslot ?_)
    rw [if_neg (by simp [hwide])]
    simpa using ih (fun slot hmem => h slot (List.mem_cons_of_mem _ hmem)) (pool.push s)

theorem pool {slots : List Slot} (h : ∀ slot ∈ slots, slot.Writable)
    (hn : slots.length + 1 ≤ 0xFFFF) :
    Reads readPool (Bytes.word16 (slots.length + 1) ++ (slots.map Slot.octets).flatten)
      (poolOf slots) :=
  bind (u2 hn) (Reads.slots h #[.other])

theorem textAt {slots : List Slot} {index : Nat} {t : Text} (h : HasText slots index t) :
    Reads (textAt (poolOf slots) index) [] t := by
  rw [ClassFile.textAt, getElem?_poolOf, h]
  exact pure t

theorem classAt {slots : List Slot} {index : Nat} {t : Text} (h : HasClass slots index t) :
    Reads (classAt (poolOf slots) index) [] (some t) := by
  obtain ⟨nameIndex, hclass, htext⟩ := h
  have hne : index ≠ 0 := by
    rintro rfl
    cases hclass
  rw [ClassFile.classAt, if_neg hne, getElem?_poolOf, hclass]
  exact map some (textAt htext)

/-- A member without attributes. -/
theorem member {slots : List Slot} {flags name descriptor : Nat} {m : Member}
    (kindOf : Text → MemberKind) (hf : flags ≤ 0xFFFF) (hn : name ≤ 0xFFFF)
    (hd : descriptor ≤ 0xFFFF) (hname : HasText slots name m.name)
    (hdescriptor : HasText slots descriptor m.descriptor) :
    Reads (readMember (poolOf slots) kindOf)
      (Bytes.word16 flags ++ Bytes.word16 name ++ Bytes.word16 descriptor ++ Bytes.word16 0)
      { name := m.name, descriptor := m.descriptor, accessFlags := flags, kind := kindOf m.name } := by
  rw [List.append_assoc, List.append_assoc]
  refine bind (u2 hf) (bind (u2 hn) (bind_first (textAt hname) ?_))
  refine bind (u2 hd) (bind_first (textAt hdescriptor) ?_)
  exact bind_last none_counted (pure _)

end Reads

end ClassFile

end JndiScan
