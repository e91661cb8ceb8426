/-
What writing a class keeps of its constants. The constants entered so far stand for a list of slots
that only grows, so a number once given out keeps its meaning until the class is complete. `Holds`
is this invariant, `Writes` says that a step keeps it, and the numbers and octets that a step gives
are told by the slots.
-/
import JndiScan.ClassFile.Writer
import JndiScan.Proofs.ClassFile.Reading

namespace JndiScan.ClassFile

/-! ## Steps -/

section Steps

theorem pure_apply (x : α) (cs : Constants) : (pure x : Writer α) cs = .ok (x, cs) := rfl

theorem bind_apply (w : Writer α) (f : α → Writer β) (cs : Constants) :
    (w >>= f) cs = match w cs with
      | .ok (x, cs₁) => f x cs₁
      | .error e => .error e := by
  show (w cs).bind (fun p => f p.1 p.2) = _
  cases w cs <;> rfl

theorem get_apply (cs : Constants) : (get : Writer Constants) cs = .ok (cs, cs) := rfl

theorem modifyGet_apply (f : Constants → α × Constants) (cs : Constants) :
    (modifyGet f : Writer α) cs = .ok (f cs) := rfl

theorem liftM_apply (written : Written) (cs : Constants) :
    (liftM written : Writer Bytes) cs = match written with
      | .ok bs => .ok (bs, cs)
      | .error e => .error e := by
  show written.bind (fun bs => .ok (bs, cs)) = _
  cases written <;> rfl

variable {w : Writer α} {cs cs' : Constants}

theorem bind_eq_ok_iff {f : α → Writer β} {y : β × Constants} :
    (w >>= f) cs = .ok y ↔ ∃ x cs₁, w cs = .ok (x, cs₁) ∧ f x cs₁ = .ok y := by
  rw [bind_apply]
  cases h : w cs with
  | error e => simp
  | ok p =>
    constructor
    · exact fun hf => ⟨p.1, p.2, rfl, hf⟩
    · rintro ⟨x, cs₁, heq, hf⟩
      cases heq
      exact hf

theorem field16_eq_ok_iff {n : Nat} {bs : Bytes} :
    (liftM (field16 n) : Writer Bytes) cs = .ok (bs, cs') ↔
      n ≤ 0xFFFF ∧ bs = Bytes.word16 n ∧ cs' = cs := by
  rw [liftM_apply]
  by_cases h : n ≤ 0xFFFF
  · rw [field16, if_pos h]
    constructor
    · intro heq
      cases heq
      exact ⟨h, rfl, rfl⟩
    · rintro ⟨-, rfl, rfl⟩
      rfl
  · simp [field16, h]

end Steps

/-! ## The constants as slots -/

/-- The constants entered so far are the slots, and the numbers kept of texts and classes are
theirs. -/
structure Holds (cs : Constants) (slots : List Slot) : Prop where
  entries : cs.entries.reverse = slots.map Slot.octets
  count : cs.count = slots.length
  writable : ∀ slot ∈ slots, slot.Writable
  texts : ∀ t n, cs.texts[t]? = some n → HasText slots n t
  classes : ∀ t n, cs.classes[t]? = some n → HasClass slots n t

theorem Holds.empty : Holds {} [] where
  entries := rfl
  count := rfl
  writable := by simp
  texts := by simp
  classes := by simp

section Growth

variable {slots slots' : List Slot} {index : Nat} {t : Text}

theorem getElem?_of_isPrefix {slot : Slot} (h : slots <+: slots')
    (hs : (Slot.other :: slots)[index]? = some slot) :
    (Slot.other :: slots')[index]? = some slot := by
  obtain ⟨more, rfl⟩ := h
  rw [← List.cons_append, List.getElem?_append_left (List.getElem?_eq_some_iff.1 hs).1, hs]

theorem HasText.mono (h : slots <+: slots') (ht : HasText slots index t) :
    HasText slots' index t :=
  getElem?_of_isPrefix h ht

theorem HasClass.mono (h : slots <+: slots') (hc : HasClass slots index t) :
    HasClass slots' index t := by
  obtain ⟨nameIndex, hclass, htext⟩ := hc
  exact ⟨nameIndex, getElem?_of_isPrefix h hclass, htext.mono h⟩

end Growth

namespace Holds

variable {cs : Constants} {slots : List Slot}

/-- A constant entered last is the last slot. -/
theorem entered {slot : Slot} (hh : Holds cs slots) (hslot : slot.Writable) :
    Holds { cs with entries := slot.octets :: cs.entries, count := cs.count + 1 }
      (slots ++ [slot]) where
  entries := by simp [hh.entries]
  count := by simp [hh.count]
  writable := by
    intro slot' hmem
    rcases List.mem_append.1 hmem with hold | hlast
    · exact hh.writable slot' hold
    · rwa [List.mem_singleton.1 hlast]
  texts := fun t n hn => (hh.texts t n hn).mono (List.prefix_append ..)
  classes := fun t n hn => (hh.classes t n hn).mono (List.prefix_append ..)

/-- A number that is a text's may be kept for the text. -/
theorem insert_text {t : Text} {n : Nat} (hh : Holds cs slots) (ht : HasText slots n t) :
    Holds { cs with texts := cs.texts.insert t n } slots where
  entries := hh.entries
  count := hh.count
  writable := hh.writable
  texts := by
    intro t' k hk
    rw [Std.HashMap.getElem?_insert] at hk
    split at hk
    · next heq =>
      cases hk
      rwa [← eq_of_beq heq]
    · exact hh.texts t' k hk
  classes := hh.classes

/-- A number that is a class's may be kept for the class. -/
theorem insert_class {t : Text} {n : Nat} (hh : Holds cs slots) (hc : HasClass slots n t) :
    Holds { cs with classes := cs.classes.insert t n } slots where
  entries := hh.entries
  count := hh.count
  writable := hh.writable
  texts := hh.texts
  classes := by
    intro t' k hk
    rw [Std.HashMap.getElem?_insert] at hk
    split at hk
    · next heq =>
      cases hk
      rwa [← eq_of_beq heq]
    · exact hh.classes t' k hk

/-- The number of the constant entered last. -/
theorem getElem?_entered (hh : Holds cs slots) (slot : Slot) :
    (Slot.other :: (slots ++ [slot]))[cs.count + 1]? = some slot := by
  simp [hh.count]

end Holds

/-- A step that succeeds leaves the slots where they are, and what it gives is in the relation `Q`
to all slots that there are then. -/
def Writes (w : Writer α) (Q : List Slot → α → Prop) : Prop :=
  ∀ cs slots x cs', Holds cs slots → w cs = .ok (x, cs') →
    ∃ slots', slots <+: slots' ∧ Holds cs' slots' ∧ Q slots' x

theorem writes_textNumber (t : Text) : Writes (textNumber t) fun slots n => HasText slots n t := by
  intro cs slots n cs' hh hw
  rw [textNumber] at hw
  cases hfound : cs.texts[t]? with
  | some k =>
    rw [hfound] at hw
    cases hw
    exact ⟨slots, List.prefix_refl _, hh, hh.texts t n hfound⟩
  | none =>
    rw [hfound] at hw
    by_cases hlong : (constantOctets t).length > 0xFFFF
    · simp [hlong] at hw
    · simp only [hlong, if_false, Except.ok.injEq, Prod.mk.injEq] at hw
      obtain ⟨rfl, rfl⟩ := hw
      have hslot : (Slot.text t).Writable := Nat.le_of_not_gt hlong
      have hnew : HasText (slots ++ [Slot.text t]) (cs.count + 1) t := hh.getElem?_entered _
      exact ⟨_, List.prefix_append .., (hh.entered hslot).insert_text hnew, hnew⟩

theorem writes_classNumber (t : Text) :
    Writes (classNumber t) fun slots n => HasClass slots n t := by
  intro cs slots n cs' hh hw
  obtain ⟨cs₀, cs₁, hget, hnext⟩ := bind_eq_ok_iff.1 hw
  cases hget
  cases hfound : cs.classes[t]? with
  | some k =>
    rw [hfound] at hnext
    cases hnext
    exact ⟨slots, List.prefix_refl _, hh, hh.classes t n hfound⟩
  | none =>
    rw [hfound] at hnext
    obtain ⟨nameNumber, cs₁, htext, hnumbered⟩ := bind_eq_ok_iff.1 hnext
    obtain ⟨nameField, cs₂, hfield, hentered⟩ := bind_eq_ok_iff.1 hnumbered
    obtain ⟨hle, rfl, rfl⟩ := field16_eq_ok_iff.1 hfield
    cases hentered
    obtain ⟨slots₁, hbegins, hh₁, hname⟩ := writes_textNumber t _ _ _ _ hh htext
    have hslot : (Slot.classRef nameNumber).Writable := hle
    have hgrow : slots₁ <+: slots₁ ++ [.classRef nameNumber] := List.prefix_append ..
    have hnew : HasClass (slots₁ ++ [.classRef nameNumber]) (cs₂.count + 1) t :=
      ⟨nameNumber, hh₁.getElem?_entered _, hname.mono hgrow⟩
    exact ⟨_, hbegins.trans hgrow, (hh₁.entered hslot).insert_class hnew, hnew⟩

/-- Steps on each item of a list, one after the other. -/
theorem writes_eachFrom {step : α → Writer β} {Q : α → List Slot → β → Prop}
    (hstep : ∀ x, Writes (step x) (Q x))
    (hmono : ∀ x slots slots' y, slots <+: slots' → Q x slots y → Q x slots' y)
    (xs : List α) (done : Array β) :
    Writes (eachFrom step done xs) fun slots ys =>
      ∃ new, ys = done ++ new.toArray ∧ List.Forall₂ (fun x y => Q x slots y) xs new := by
  intro cs slots ys cs' hh hw
  induction xs generalizing done cs slots with
  | nil =>
    cases hw
    exact ⟨slots, List.prefix_refl _, hh, [], by simp, .nil⟩
  | cons x xs ih =>
    obtain ⟨y, cs₁, hx, hxs⟩ := bind_eq_ok_iff.1 hw
    obtain ⟨slots₁, hbegins₁, hh₁, hy⟩ := hstep x _ _ _ _ hh hx
    obtain ⟨slots₂, hbegins₂, hh₂, new, rfl, hnew⟩ := ih _ _ _ hh₁ hxs
    exact ⟨slots₂, hbegins₁.trans hbegins₂, hh₂, y :: new, by simp,
      .cons (hmono x _ _ y hbegins₂ hy) hnew⟩

/-! ## Members -/

/-- The octets write the member by the numbers of its texts. -/
def WritesMember (slots : List Slot) (m : Member) (bs : Bytes) : Prop :=
  ∃ name descriptor, name ≤ 0xFFFF ∧ descriptor ≤ 0xFFFF ∧ HasText slots name m.name ∧
    HasText slots descriptor m.descriptor ∧
    bs = Bytes.word16 (Access.low16 m.accessFlags) ++ Bytes.word16 name ++
      Bytes.word16 descriptor ++ Bytes.word16 0

theorem WritesMember.mono {slots slots' : List Slot} {m : Member} {bs : Bytes}
    (hgrow : slots <+: slots') (h : WritesMember slots m bs) : WritesMember slots' m bs := by
  obtain ⟨name, descriptor, hn, hd, hname, hdescriptor, rfl⟩ := h
  exact ⟨name, descriptor, hn, hd, hname.mono hgrow, hdescriptor.mono hgrow, rfl⟩

theorem writes_writeMember (m : Member) :
    Writes (writeMember m) fun slots bs => WritesMember slots m bs := by
  intro cs slots bs cs' hh hw
  obtain ⟨name, cs₁, hname, hw₁⟩ := bind_eq_ok_iff.1 hw
  obtain ⟨descriptor, cs₂, hdescriptor, hw₂⟩ := bind_eq_ok_iff.1 hw₁
  obtain ⟨nameField, cs₃, hnameField, hw₃⟩ := bind_eq_ok_iff.1 hw₂
  obtain ⟨hn, rfl, rfl⟩ := field16_eq_ok_iff.1 hnameField
  obtain ⟨descriptorField, cs₄, hdescriptorField, hw₄⟩ := bind_eq_ok_iff.1 hw₃
  obtain ⟨hd, rfl, rfl⟩ := field16_eq_ok_iff.1 hdescriptorField
  cases hw₄
  obtain ⟨slots₁, hbegins₁, hh₁, htext₁⟩ := writes_textNumber _ _ _ _ _ hh hname
  obtain ⟨slots₂, hbegins₂, hh₂, htext₂⟩ := writes_textNumber _ _ _ _ _ hh₁ hdescriptor
  exact ⟨slots₂, hbegins₁.trans hbegins₂, hh₂, name, descriptor, hn, hd, htext₁.mono hbegins₂,
    htext₂, rfl⟩

/-- The octets write a group of members, with its count first. -/
def WritesMembers (slots : List Slot) (ms : List Member) (bs : Bytes) : Prop :=
  ms.length ≤ 0xFFFF ∧ ∃ pieces, List.Forall₂ (WritesMember slots) ms pieces ∧
    bs = Bytes.word16 ms.length ++ pieces.flatten

theorem WritesMembers.mono {slots slots' : List Slot} {ms : List Member} {bs : Bytes}
    (hgrow : slots <+: slots') (h : WritesMembers slots ms bs) : WritesMembers slots' ms bs := by
  obtain ⟨hlen, pieces, hall, rfl⟩ := h
  exact ⟨hlen, pieces, hall.imp fun _ _ => .mono hgrow, rfl⟩

theorem writes_writeMembers (ms : List Member) :
    Writes (writeMembers ms) fun slots bs => WritesMembers slots ms bs := by
  intro cs slots bs cs' hh hw
  obtain ⟨count, cs₁, hfield, hw₁⟩ := bind_eq_ok_iff.1 hw
  obtain ⟨hlen, rfl, rfl⟩ := field16_eq_ok_iff.1 hfield
  obtain ⟨members, cs₂, heach, hw₂⟩ := bind_eq_ok_iff.1 hw₁
  cases hw₂
  obtain ⟨slots₁, hbegins, hh₁, pieces, rfl, hall⟩ :=
    writes_eachFrom writes_writeMember (fun _ _ _ _ => .mono) ms #[] _ _ _ _ hh heach
  exact ⟨slots₁, hbegins, hh₁, hlen, pieces, hall, by simp⟩

end JndiScan.ClassFile
