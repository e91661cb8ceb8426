/-
Which octets are read as a class: exactly those that begin with a layout of the grammar whose
numbers lead to that class. `Reads` of the reading lemmas is one half of it, that everything of the
grammar is taken; `Takes` is the other half, that nothing else is.
-/
import JndiScan.Proofs.ClassFile.Layout
import JndiScan.Proofs.ClassFile.Reading

namespace JndiScan

namespace Bytes

theorem bigEndian_two (b0 b1 : UInt8) : bigEndian [b0, b1] = 256 * b0.toNat + b1.toNat := by
  simp [bigEndian]

theorem bigEndian_four (b0 b1 b2 b3 : UInt8) : bigEndian [b0, b1, b2, b3] =
    256 * (256 * (256 * b0.toNat + b1.toNat) + b2.toNat) + b3.toNat := by
  simp [bigEndian]

/-- Two octets are those of the number that they write. -/
theorem eq_word16_of_length {bs : Bytes} (h : bs.length = 2) :
    bigEndian bs ≤ 0xFFFF ∧ bs = word16 (bigEndian bs) := by
  obtain ⟨b0, b1, rfl⟩ := List.length_eq_two.1 h
  have h0 := b0.toNat_lt
  have h1 := b1.toNat_lt
  rw [bigEndian_two, word16, Text.Utf8.toUInt8_eq_of_eq_toNat (b := b0) (by omega)]
  refine ⟨by omega, ?_⟩
  rw [show (256 * b0.toNat + b1.toNat).toUInt8 = b1 from UInt8.toNat_inj.1 (by simp)]

/-- Four octets are those of the number that they write. -/
theorem eq_word32_of_length {bs : Bytes} (h : bs.length = 4) :
    bigEndian bs ≤ 0xFFFFFFFF ∧ bs = word32 (bigEndian bs) := by
  match bs, h with
  | [b0, b1, b2, b3], _ =>
    have h0 := b0.toNat_lt
    have h1 := b1.toNat_lt
    have h2 := b2.toNat_lt
    have h3 := b3.toNat_lt
    rw [bigEndian_four]
    refine ⟨by omega, ?_⟩
    simp only [word32, List.cons.injEq, and_true, ← UInt8.toNat_inj]
    simp
    omega

end Bytes

namespace ClassFile

/-! ## What a reader takes -/

/-- Whenever the reader gives something, it has taken octets that stand for it. -/
def Takes (r : Reader α) (L : Bytes → α → Prop) : Prop :=
  ∀ {c x c'}, r c = .ok (x, c') → ∃ bs, c.rest = bs ++ c'.rest ∧ L bs x

namespace Reader

theorem bind_eq_ok_iff {r : Reader α} {f : α → Reader β} {c : Cursor} {y : β × Cursor} :
    (r >>= f) c = .ok y ↔ ∃ x c₁, r c = .ok (x, c₁) ∧ f x c₁ = .ok y := by
  show (r c).bind (fun p => f p.1 p.2) = .ok y ↔ _
  cases r c with
  | error e => simp [Except.bind]
  | ok p =>
    constructor
    · exact fun h => ⟨p.1, p.2, rfl, h⟩
    · rintro ⟨x, c₁, heq, h⟩
      cases heq
      exact h

theorem map_eq_ok_iff {r : Reader α} {g : α → β} {c c' : Cursor} {y : β} :
    (g <$> r) c = .ok (y, c') ↔ ∃ x, r c = .ok (x, c') ∧ g x = y := by
  show (r c).bind (fun p => .ok (g p.1, p.2)) = .ok (y, c') ↔ _
  cases r c with
  | error e => simp [Except.bind]
  | ok p =>
    constructor
    · intro h
      cases h
      exact ⟨p.1, rfl, rfl⟩
    · rintro ⟨x, heq, rfl⟩
      cases heq
      rfl

end Reader

namespace Takes

theorem take (n : Nat) : Takes (Reader.take n) fun bs x => bs = x ∧ x.length = n := by
  intro c x c' h
  simp only [Reader.take] at h
  split at h
  · cases h
  · next hlen =>
    cases h
    refine ⟨c.rest.take n, (List.take_append_drop ..).symm, rfl, ?_⟩
    have := List.length_take_le n c.rest
    omega

theorem u1 : Takes Reader.u1 fun bs n => ∃ b, bs = [b] ∧ n = b.toNat := by
  intro c n c' h
  obtain ⟨x, hx, rfl⟩ := Reader.map_eq_ok_iff.1 h
  obtain ⟨bs, hrest, rfl, hlen⟩ := take 1 hx
  obtain ⟨b, rfl⟩ := List.length_eq_one_iff.1 hlen
  exact ⟨[b], hrest, b, rfl, by simp [Bytes.bigEndian]⟩

theorem u2 : Takes Reader.u2 fun bs n => bs = Bytes.word16 n ∧ n ≤ 0xFFFF := by
  intro c n c' h
  obtain ⟨x, hx, rfl⟩ := Reader.map_eq_ok_iff.1 h
  obtain ⟨bs, hrest, rfl, hlen⟩ := take 2 hx
  obtain ⟨hle, heq⟩ := Bytes.eq_word16_of_length hlen
  exact ⟨bs, hrest, heq, hle⟩

theorem u4 : Takes Reader.u4 fun bs n => bs = Bytes.word32 n ∧ n ≤ 0xFFFFFFFF := by
  intro c n c' h
  obtain ⟨x, hx, rfl⟩ := Reader.map_eq_ok_iff.1 h
  obtain ⟨bs, hrest, rfl, hlen⟩ := take 4 hx
  obtain ⟨hle, heq⟩ := Bytes.eq_word32_of_length hlen
  exact ⟨bs, hrest, heq, hle⟩

variable {item : Reader α} {layoutOctets : β → Bytes} {P : β → Prop} {R : β → α → Prop}

theorem manyFrom (hitem : Takes item fun bs x => ∃ l, P l ∧ R l x ∧ bs = layoutOctets l)
    (done : Array α) (n : Nat) :
    Takes (Reader.manyFrom item done n) fun bs ys => ∃ ls xs, ls.length = n ∧ (∀ l ∈ ls, P l) ∧
      List.Forall₂ R ls xs ∧ bs = ls.flatMap layoutOctets ∧ ys = done ++ xs.toArray := by
  induction n generalizing done with
  | zero =>
    intro c ys c' h
    cases h
    exact ⟨[], rfl, [], [], rfl, by simp, .nil, rfl, by simp⟩
  | succ n ih =>
    intro c ys c' h
    obtain ⟨x, c₁, hx, hrest⟩ := Reader.bind_eq_ok_iff.1 h
    obtain ⟨_, heq, l, hl, hR, rfl⟩ := hitem hx
    obtain ⟨_, heq', ls, xs, hlen, hls, hall, rfl, rfl⟩ := ih _ hrest
    refine ⟨layoutOctets l ++ ls.flatMap layoutOctets, ?_, l :: ls, x :: xs, ?_, ?_, ?_, ?_, ?_⟩
    · rw [heq, heq', List.append_assoc]
    · rw [List.length_cons, hlen]
    · exact List.forall_mem_cons.2 ⟨hl, hls⟩
    · exact .cons hR hall
    · rw [List.flatMap_cons]
    · simp

theorem counted (hitem : Takes item fun bs x => ∃ l, P l ∧ R l x ∧ bs = layoutOctets l) :
    Takes (Reader.counted item) fun bs xs => ∃ ls, ls.length ≤ 0xFFFF ∧ (∀ l ∈ ls, P l) ∧
      List.Forall₂ R ls xs ∧ bs = countedOctets layoutOctets ls := by
  intro c ys c' h
  obtain ⟨n, c₁, hn, h₁⟩ := Reader.bind_eq_ok_iff.1 h
  obtain ⟨items, c₂, hitems, h₂⟩ := Reader.bind_eq_ok_iff.1 h₁
  cases h₂
  obtain ⟨_, heq, rfl, hle⟩ := u2 hn
  obtain ⟨_, heq', ls, xs, rfl, hls, hall, rfl, rfl⟩ := manyFrom hitem #[] n hitems
  exact ⟨countedOctets layoutOctets ls, by rw [heq, heq', countedOctets, List.append_assoc], ls,
    hle, hls, by simpa using hall, rfl⟩

end Takes

/-- Items of the grammar, with their count, are read. -/
theorem Reads.countedOctets {item : Reader α} {layoutOctets : β → Bytes} {R : β → α → Prop}
    {ls : List β} {xs : List α} (hn : ls.length ≤ 0xFFFF)
    (hitem : ∀ l ∈ ls, ∀ x, R l x → Reads item (layoutOctets l) x) (h : List.Forall₂ R ls xs) :
    Reads (Reader.counted item) (ClassFile.countedOctets layoutOctets ls) xs := by
  have hlen := h.length_eq
  rw [ClassFile.countedOctets, List.flatMap_def, hlen]
  refine counted (hlen ▸ hn) ?_
  rw [List.forall₂_map_left_iff]
  exact List.Forall₂.imp (fun l x hl => hitem l hl.1 x hl.2) ((List.forall₂_and_left _ _).2
    ⟨fun l hl => hl, h⟩)

/-! ## The constant pool -/

namespace Constant

/-- What a constant is for a reader of the pool. -/
def slot : Constant → Slot
  | text raw =>
    match constantText raw with
    | .ok t => .text t
    | .error _ => .other
  | classRef nameIndex => .classRef nameIndex
  | plain _ _ => .other

/-- What the numbers of a constant are for a reader of the pool. -/
def slots (c : Constant) : List Slot := c.slot :: List.replicate (c.numbers - 1) .other

theorem one_le_numbers (c : Constant) : 1 ≤ c.numbers := by
  rw [numbers]
  split <;> decide

theorem length_slots (c : Constant) : c.slots.length = c.numbers := by
  have := c.one_le_numbers
  rw [slots, List.length_cons, List.length_replicate]
  omega

theorem isWide_tag (c : Constant) : isWide c.tag.toNat = decide (c.numbers = 2) := by
  have h5 : c.tag = 5 ↔ c.tag.toNat = 5 := by rw [← UInt8.toNat_inj]; rfl
  have h6 : c.tag = 6 ↔ c.tag.toNat = 6 := by rw [← UInt8.toNat_inj]; rfl
  simp only [numbers, h5, h6, isWide]
  by_cases h : c.tag.toNat = 5 ∨ c.tag.toNat = 6
  · simp [h]
  · simp [h]
    omega

end Constant

theorem constantText_eq_ok_iff {raw : Bytes} {t : Text} :
    constantText raw = .ok t ↔ WritesText raw t :=
  Text.ofUtf8_eq_ok_iff

theorem payloadSize?_eq_some_iff {tag size : Nat} :
    payloadSize? tag = some size ↔ (tag, size) ∈ plainSizes := by
  constructor
  · intro h
    unfold payloadSize? at h
    split at h <;> cases h <;> decide
  · intro h
    simp only [plainSizes, List.mem_cons, Prod.mk.injEq, List.not_mem_nil, or_false] at h
    rcases h with ⟨rfl, rfl⟩ | ⟨rfl, rfl⟩ | ⟨rfl, rfl⟩ | ⟨rfl, rfl⟩ | ⟨rfl, rfl⟩ | ⟨rfl, rfl⟩ |
      ⟨rfl, rfl⟩ | ⟨rfl, rfl⟩ | ⟨rfl, rfl⟩ | ⟨rfl, rfl⟩ | ⟨rfl, rfl⟩ | ⟨rfl, rfl⟩ | ⟨rfl, rfl⟩ |
      ⟨rfl, rfl⟩ | ⟨rfl, rfl⟩ <;> rfl

theorem Reads.readSlot {c : Constant} (h : c.WellFormed) (index : Nat) :
    Reads (readSlot c.tag.toNat index) c.body c.slot := by
  cases c with
  | text raw =>
    obtain ⟨hlen, t, ht⟩ := h
    have hslot : (Constant.text raw).slot = .text t := by
      rw [Constant.slot, constantText_eq_ok_iff.2 ht]
    rw [hslot, Constant.tag, ClassFile.readSlot, if_pos (by decide)]
    refine bind (u2 hlen) (bind_last (take raw) ?_)
    rw [constantText_eq_ok_iff.2 ht]
    exact pure _
  | classRef nameIndex =>
    rw [Constant.tag, ClassFile.readSlot, if_neg (by decide), if_pos (by decide)]
    exact map _ (u2 h)
  | plain tag payload =>
    have hsize : payloadSize? tag.toNat = some payload.length := payloadSize?_eq_some_iff.2 h
    have h1 : tag.toNat ≠ 1 := fun h1 => by simp [h1, payloadSize?] at hsize
    have h7 : tag.toNat ≠ 7 := fun h7 => by simp [h7, payloadSize?] at hsize
    rw [Constant.tag, ClassFile.readSlot, if_neg h1, if_neg h7, hsize]
    exact bind_last (take payload) (pure _)

theorem Takes.readSlot (tag : UInt8) (index : Nat) :
    Takes (readSlot tag.toNat index) fun bs slot =>
      ∃ c : Constant, c.WellFormed ∧ c.tag = tag ∧ c.body = bs ∧ c.slot = slot := by
  intro c slot c' h
  rw [ClassFile.readSlot] at h
  split at h
  · next htag =>
    obtain ⟨n, c₁, hn, h₁⟩ := Reader.bind_eq_ok_iff.1 h
    obtain ⟨_, c₂, hraw, h₂⟩ := Reader.bind_eq_ok_iff.1 h₁
    obtain ⟨_, heq, rfl, hle⟩ := u2 hn
    obtain ⟨raw, heq', rfl, rfl⟩ := take n hraw
    cases ht : constantText raw with
    | error fault =>
      rw [ht] at h₂
      cases h₂
    | ok t =>
      rw [ht] at h₂
      cases h₂
      refine ⟨(Constant.text raw).body, ?_, .text raw, ⟨hle, t, ?_⟩, ?_, rfl, ?_⟩
      · rw [heq, heq', Constant.body, List.append_assoc]
      · exact constantText_eq_ok_iff.1 ht
      · exact UInt8.toNat_inj.1 htag.symm
      · rw [Constant.slot, ht]
  · split at h
    · next htag =>
      obtain ⟨n, hn, rfl⟩ := Reader.map_eq_ok_iff.1 h
      obtain ⟨_, heq, rfl, hle⟩ := u2 hn
      exact ⟨_, heq, .classRef n, hle, UInt8.toNat_inj.1 htag.symm, rfl, rfl⟩
    · cases hsize : payloadSize? tag.toNat with
      | none =>
        rw [hsize] at h
        cases h
      | some size =>
        rw [hsize] at h
        obtain ⟨_, c₁, hpayload, h₁⟩ := Reader.bind_eq_ok_iff.1 h
        cases h₁
        obtain ⟨payload, heq, rfl, rfl⟩ := take size hpayload
        exact ⟨_, heq, .plain tag payload, payloadSize?_eq_some_iff.1 hsize, rfl, rfl, rfl⟩

theorem slots_of_isWide {c : Constant} (h : isWide c.tag.toNat = true) :
    c.numbers = 2 ∧ c.slots = [c.slot, .other] := by
  rw [c.isWide_tag, decide_eq_true_eq] at h
  exact ⟨h, by rw [Constant.slots, h]; rfl⟩

theorem slots_of_not_isWide {c : Constant} (h : ¬ isWide c.tag.toNat = true) :
    c.numbers = 1 ∧ c.slots = [c.slot] := by
  have hle := c.one_le_numbers
  have hnumbers : c.numbers = 1 := by
    rw [c.isWide_tag, decide_eq_true_eq] at h
    rw [Constant.numbers] at h hle ⊢
    split at h <;> simp_all
  exact ⟨hnumbers, by rw [Constant.slots, hnumbers]; rfl⟩

/-- Constants that fill the pool from its size on are read. -/
theorem Reads.readSlots {count room : Nat} {pool : ConstantPool} {cs : List Constant}
    (hroom : room = count - pool.size) (h : Fills count pool.size cs) :
    Reads (readSlots pool room) (cs.flatMap Constant.octets)
      (pool ++ (cs.flatMap Constant.slots).toArray) := by
  induction cs generalizing pool room with
  | nil =>
    cases h with
    | full hle =>
      rw [hroom, Nat.sub_eq_zero_of_le hle, ClassFile.readSlots]
      simpa using pure pool
  | cons c cs ih =>
    cases h with
    | next hlt hc hrest =>
      obtain ⟨room, rfl⟩ : ∃ k, room = k + 1 := ⟨room - 1, by omega⟩
      have hoctets : c.octets = [c.tag] ++ c.body := rfl
      rw [ClassFile.readSlots, List.flatMap_cons, List.flatMap_cons, hoctets, List.append_assoc]
      refine bind (u1 c.tag) (bind (readSlot hc pool.size) ?_)
      by_cases hw : isWide c.tag.toNat = true
      · obtain ⟨hnumbers, hslots⟩ := slots_of_isWide hw
        rw [hnumbers] at hrest
        rw [if_pos hw, hslots]
        have hread := @ih (room - 1) ((pool.push c.slot).push .other)
          (by simp only [Array.size_push]; omega) (by simpa using hrest)
        simpa using hread
      · obtain ⟨hnumbers, hslots⟩ := slots_of_not_isWide hw
        rw [hnumbers] at hrest
        rw [if_neg hw, hslots]
        have hread := @ih room (pool.push c.slot)
          (by simp only [Array.size_push]; omega) (by simpa using hrest)
        simpa using hread

theorem Takes.readSlots {count room : Nat} {pool : ConstantPool}
    (hroom : room = count - pool.size) :
    Takes (readSlots pool room) fun bs pool' => ∃ cs, Fills count pool.size cs ∧
      bs = cs.flatMap Constant.octets ∧ pool' = pool ++ (cs.flatMap Constant.slots).toArray := by
  induction room using Nat.strongRecOn generalizing pool with
  | _ room ih =>
    intro c pool' c' h
    cases room with
    | zero =>
      rw [ClassFile.readSlots] at h
      cases h
      exact ⟨[], rfl, [], .full (by omega), rfl, by simp⟩
    | succ room =>
      rw [ClassFile.readSlots] at h
      obtain ⟨_, c₁, htag, h₁⟩ := Reader.bind_eq_ok_iff.1 h
      obtain ⟨_, heq, tag, rfl, rfl⟩ := u1 htag
      obtain ⟨_, c₂, hslot, h₂⟩ := Reader.bind_eq_ok_iff.1 h₁
      obtain ⟨_, heq', constant, hc, rfl, rfl, rfl⟩ := readSlot tag pool.size hslot
      -- The constant is followed by those that fill the rest of the pool.
      have hnext : ∀ {pool₁ : ConstantPool} {room₁ : Nat}, room₁ < room + 1 →
          pool₁ = pool ++ constant.slots.toArray → room₁ = count - pool₁.size →
          ClassFile.readSlots pool₁ room₁ c₂ = .ok (pool', c') →
          ∃ bs, c.rest = bs ++ c'.rest ∧ ∃ cs, Fills count pool.size cs ∧
            bs = cs.flatMap Constant.octets ∧
            pool' = pool ++ (cs.flatMap Constant.slots).toArray := by
        intro pool₁ room₁ hlt hpool hroom₁ hread
        have hsize : pool₁.size = pool.size + constant.numbers := by
          simp [hpool, constant.length_slots]
        obtain ⟨_, heq'', cs, hcs, rfl, rfl⟩ := ih room₁ hlt hroom₁ hread
        rw [hsize] at hcs
        refine ⟨(constant :: cs).flatMap Constant.octets, ?_, constant :: cs,
          .next (by omega) hc hcs, rfl, ?_⟩
        · rw [heq, heq', heq'', List.flatMap_cons, Constant.octets, List.append_assoc]
          rfl
        · simp [hpool]
      by_cases hw : isWide constant.tag.toNat = true
      · obtain ⟨hnumbers, hslots⟩ := slots_of_isWide hw
        rw [if_pos hw] at h₂
        exact hnext (by omega) (Array.toList_inj.1 (by simp [hslots]))
          (by simp only [Array.size_push]; omega) h₂
      · obtain ⟨hnumbers, hslots⟩ := slots_of_not_isWide hw
        rw [if_neg hw] at h₂
        exact hnext (by omega) (by simp [hslots]) (by simp only [Array.size_push]; omega) h₂

/-! ## Numbers of constants -/

theorem constantAt_eq_none_of_lt {first number : Nat} {cs : List Constant} (h : number < first) :
    constantAt first number cs = none := by
  induction cs generalizing first with
  | nil => rfl
  | cons c cs ih => rw [constantAt, if_neg (by omega), ih (by omega)]

/-- What the pool holds for a number is told by the constant with that number; the second number of
a wide constant is no constant's. -/
theorem getElem?_flatMap_slots (cs : List Constant) (first k : Nat) {slot : Slot}
    (hslot : slot ≠ .other) : (cs.flatMap Constant.slots)[k]? = some slot ↔
      ∃ c, constantAt first (first + k) cs = some c ∧ c.slot = slot := by
  induction cs generalizing first k with
  | nil => simp [constantAt]
  | cons c cs ih =>
    rw [List.flatMap_cons, constantAt]
    cases k with
    | zero => simp [Constant.slots]
    | succ k =>
      rw [if_neg (by omega)]
      by_cases hk : k + 1 < c.numbers
      · have hother : c.slots[k + 1]? = some .other := by
          simp only [Constant.slots, List.getElem?_cons_succ, List.getElem?_replicate]
          rw [if_pos (by omega)]
        rw [List.getElem?_append_left (by rw [c.length_slots]; exact hk), hother,
          constantAt_eq_none_of_lt (by omega)]
        simp [hslot.symm]
      · have hk' : first + (k + 1) = first + c.numbers + (k + 1 - c.numbers) := by omega
        rw [List.getElem?_append_right (by rw [c.length_slots]; omega), c.length_slots, hk', ih]

theorem getElem?_pool_iff {cs : List Constant} {number : Nat} {slot : Slot}
    (hslot : slot ≠ .other) : (Slot.other :: cs.flatMap Constant.slots)[number]? = some slot ↔
      ∃ c, constantAt 1 number cs = some c ∧ c.slot = slot := by
  cases number with
  | zero => simp [constantAt_eq_none_of_lt, hslot.symm]
  | succ k => rw [List.getElem?_cons_succ, getElem?_flatMap_slots cs 1 k hslot, Nat.add_comm]

theorem slot_eq_text_iff {c : Constant} {t : Text} :
    c.slot = .text t ↔ ∃ raw, c = .text raw ∧ WritesText raw t := by
  cases c with
  | text raw =>
    simp only [Constant.slot, ← constantText_eq_ok_iff]
    cases h : constantText raw <;> simp [h]
  | classRef n => simp [Constant.slot]
  | plain tag payload => simp [Constant.slot]

theorem slot_eq_classRef_iff {c : Constant} {n : Nat} :
    c.slot = .classRef n ↔ c = .classRef n := by
  cases c with
  | text raw =>
    simp only [Constant.slot]
    cases constantText raw <;> simp
  | classRef n' => simp [Constant.slot]
  | plain tag payload => simp [Constant.slot]

theorem hasText_iff {cs : List Constant} {number : Nat} {t : Text} :
    HasText (cs.flatMap Constant.slots) number t ↔ TextAt cs number t := by
  rw [HasText, getElem?_pool_iff (by simp)]
  simp only [slot_eq_text_iff, TextAt]
  constructor
  · rintro ⟨_, hat, raw, rfl, hraw⟩
    exact ⟨raw, hat, hraw⟩
  · rintro ⟨raw, hat, hraw⟩
    exact ⟨_, hat, raw, rfl, hraw⟩

theorem hasClass_iff {cs : List Constant} {number : Nat} {t : Text} :
    HasClass (cs.flatMap Constant.slots) number t ↔ ClassAt cs number t := by
  have hne : ∀ n, Slot.classRef n ≠ .other := by simp
  simp only [HasClass, ClassAt, hasText_iff, getElem?_pool_iff (hne _), slot_eq_classRef_iff,
    exists_eq_right]

/-! ## The parts of a class -/

section Parts

variable {cs : List Constant}

/-- The pool of the constants. -/
def poolOfConstants (cs : List Constant) : ConstantPool := poolOf (cs.flatMap Constant.slots)

theorem Reads.readPool {count : Nat} (hn : count ≤ 0xFFFF) (h : Fills count 1 cs) :
    Reads readPool (Bytes.word16 count ++ cs.flatMap Constant.octets) (poolOfConstants cs) := by
  have hslots : count - 1 = count - (#[.other] : ConstantPool).size := rfl
  exact bind (u2 hn) (readSlots hslots h)

theorem Takes.readPool : Takes readPool fun bs pool => ∃ count cs, count ≤ 0xFFFF ∧
    Fills count 1 cs ∧ bs = Bytes.word16 count ++ cs.flatMap Constant.octets ∧
    pool = poolOfConstants cs := by
  intro c pool c' h
  obtain ⟨count, c₁, hcount, h₁⟩ := Reader.bind_eq_ok_iff.1 h
  obtain ⟨_, heq, rfl, hle⟩ := u2 hcount
  have hslots : count - 1 = count - (#[.other] : ConstantPool).size := rfl
  obtain ⟨_, heq', cs, hcs, rfl, rfl⟩ := readSlots hslots h₁
  exact ⟨_, by rw [heq, heq', List.append_assoc], count, cs, hle, hcs, rfl, rfl⟩

theorem Takes.textAt (number : Nat) : Takes (textAt (poolOfConstants cs) number) fun bs t =>
    bs = [] ∧ TextAt cs number t := by
  intro c t c' h
  rw [ClassFile.textAt, poolOfConstants, getElem?_poolOf] at h
  cases hslot : (Slot.other :: cs.flatMap Constant.slots)[number]? with
  | none =>
    rw [hslot] at h
    cases h
  | some slot =>
    rw [hslot] at h
    cases slot with
    | text t' =>
      cases h
      exact ⟨[], rfl, rfl, hasText_iff.1 hslot⟩
    | classRef _ => cases h
    | other => cases h

theorem Takes.classAt (number : Nat) : Takes (classAt (poolOfConstants cs) number) fun bs name =>
    bs = [] ∧ SuperAt cs number name := by
  intro c name c' h
  rw [ClassFile.classAt] at h
  split at h
  · next hzero =>
    cases h
    exact ⟨[], rfl, rfl, hzero⟩
  · rw [poolOfConstants, getElem?_poolOf] at h
    cases hslot : (Slot.other :: cs.flatMap Constant.slots)[number]? with
    | none =>
      rw [hslot] at h
      cases h
    | some slot =>
      rw [hslot] at h
      cases slot with
      | text _ => cases h
      | classRef nameIndex =>
        obtain ⟨t, ht, rfl⟩ := Reader.map_eq_ok_iff.1 h
        obtain ⟨_, heq, rfl, htext⟩ := textAt nameIndex ht
        exact ⟨[], heq, rfl, hasClass_iff.1 ⟨nameIndex, hslot, hasText_iff.2 htext⟩⟩
      | other => cases h

theorem Reads.superAt {number : Nat} {name : Option Text} (h : SuperAt cs number name) :
    Reads (ClassFile.classAt (poolOfConstants cs) number) [] name := by
  cases name with
  | none =>
    cases h
    exact pure none
  | some t => exact classAt (hasClass_iff.2 h)

theorem interfaceAt_iff {number : Nat} {t : Text} :
    InterfaceAt cs number t ↔ ∃ name, SuperAt cs number name ∧ name.getD [] = t := by
  constructor
  · rintro (⟨hzero, rfl⟩ | h)
    · exact ⟨none, hzero, rfl⟩
    · exact ⟨some t, h, rfl⟩
  · rintro ⟨name, h, rfl⟩
    cases name with
    | none => exact .inl ⟨h, rfl⟩
    | some t => exact .inr h

/-- One interface. -/
theorem Reads.interface {number : Nat} {t : Text} (hn : number ≤ 0xFFFF)
    (h : InterfaceAt cs number t) :
    Reads (do return (← ClassFile.classAt (poolOfConstants cs) (← Reader.u2)).getD [])
      (Bytes.word16 number) t := by
  obtain ⟨name, hname, rfl⟩ := interfaceAt_iff.1 h
  exact bind_last (u2 hn) (bind_last (superAt hname) (pure _))

theorem Takes.interface :
    Takes (do return (← ClassFile.classAt (poolOfConstants cs) (← Reader.u2)).getD [])
      fun bs t => ∃ number ≤ 0xFFFF, InterfaceAt cs number t ∧ bs = Bytes.word16 number := by
  intro c t c' h
  obtain ⟨number, c₁, hnumber, h₁⟩ := Reader.bind_eq_ok_iff.1 h
  obtain ⟨name, c₂, hname, h₂⟩ := Reader.bind_eq_ok_iff.1 h₁
  cases h₂
  obtain ⟨_, heq, rfl, hle⟩ := u2 hnumber
  obtain ⟨_, heq', rfl, hsuper⟩ := classAt number hname
  exact ⟨_, by rw [heq, heq']; rfl, number, hle, interfaceAt_iff.2 ⟨name, hsuper, rfl⟩, rfl⟩

theorem Reads.skipAttribute {a : AttributeLayout} (h : a.WellFormed) :
    Reads skipAttribute a.octets () :=
  bind (u2 h.1) (bind (u4 h.2) (bind_last (take a.content) (pure ())))

theorem Takes.skipAttribute : Takes skipAttribute fun bs _ =>
    ∃ a : AttributeLayout, a.WellFormed ∧ True ∧ bs = a.octets := by
  intro c x c' h
  obtain ⟨name, c₁, hname, h₁⟩ := Reader.bind_eq_ok_iff.1 h
  obtain ⟨size, c₂, hsize, h₂⟩ := Reader.bind_eq_ok_iff.1 h₁
  obtain ⟨_, c₃, hcontent, h₃⟩ := Reader.bind_eq_ok_iff.1 h₂
  cases h₃
  obtain ⟨_, heq, rfl, hname⟩ := u2 hname
  obtain ⟨_, heq', rfl, hsize⟩ := u4 hsize
  obtain ⟨content, heq'', rfl, rfl⟩ := take size hcontent
  refine ⟨_, ?_, ⟨name, content⟩, ⟨hname, hsize⟩, trivial, rfl⟩
  rw [heq, heq', heq'', AttributeLayout.octets, List.append_assoc, List.append_assoc]

variable {kindOf : Text → MemberKind}

theorem Reads.memberLayout {l : MemberLayout} {m : Member} (hl : l.WellFormed)
    (h : l.Denotes cs kindOf m) :
    Reads (readMember (poolOfConstants cs) kindOf) l.octets m := by
  have hattributes : Reads (Reader.counted ClassFile.skipAttribute)
      (ClassFile.countedOctets AttributeLayout.octets l.attributes)
      (l.attributes.map fun _ => ()) :=
    countedOctets (R := fun _ _ => True) hl.attributeCount
      (fun a ha _ _ => skipAttribute (hl.attributes a ha))
      ((List.forall₂_map_right_iff).2 (List.forall₂_same.2 fun _ _ => trivial))
  have hm : m = { name := m.name, descriptor := m.descriptor, accessFlags := l.accessFlags
                  kind := kindOf m.name } := by
    rw [← h.accessFlags, ← h.kind]
  refine bind (u2 hl.accessFlags) (bind (u2 hl.nameIndex) ?_)
  refine bind_first (textAt (hasText_iff.2 h.name)) (bind (u2 hl.descriptorIndex) ?_)
  refine bind_first (textAt (hasText_iff.2 h.descriptor)) (bind_last hattributes ?_)
  rw [hm]
  exact pure _

theorem Takes.readMember : Takes (readMember (poolOfConstants cs) kindOf) fun bs m =>
    ∃ l : MemberLayout, l.WellFormed ∧ l.Denotes cs kindOf m ∧ bs = l.octets := by
  intro c m c' h
  obtain ⟨flags, c₁, hflags, h₁⟩ := Reader.bind_eq_ok_iff.1 h
  obtain ⟨nameIndex, c₂, hnameIndex, h₂⟩ := Reader.bind_eq_ok_iff.1 h₁
  obtain ⟨name, c₃, hname, h₃⟩ := Reader.bind_eq_ok_iff.1 h₂
  obtain ⟨descriptorIndex, c₄, hdescriptorIndex, h₄⟩ := Reader.bind_eq_ok_iff.1 h₃
  obtain ⟨descriptor, c₅, hdescriptor, h₅⟩ := Reader.bind_eq_ok_iff.1 h₄
  obtain ⟨skipped, c₆, hskipped, h₆⟩ := Reader.bind_eq_ok_iff.1 h₅
  cases h₆
  obtain ⟨_, heq, rfl, hflags⟩ := u2 hflags
  obtain ⟨_, heq', rfl, hnameIndex⟩ := u2 hnameIndex
  obtain ⟨_, heq₃, rfl, hname⟩ := textAt nameIndex hname
  obtain ⟨_, heq₄, rfl, hdescriptorIndex⟩ := u2 hdescriptorIndex
  obtain ⟨_, heq₅, rfl, hdescriptor⟩ := textAt descriptorIndex hdescriptor
  obtain ⟨_, heq₆, attributes, hcount, hattributes, -, rfl⟩ := counted skipAttribute hskipped
  refine ⟨_, ?_, ⟨flags, nameIndex, descriptorIndex, attributes⟩,
    ⟨hflags, hnameIndex, hdescriptorIndex, hcount, hattributes⟩,
    ⟨rfl, hname, hdescriptor, rfl⟩, rfl⟩
  rw [heq, heq', heq₃, List.nil_append, heq₄, heq₅, List.nil_append, heq₆, MemberLayout.octets,
    List.append_assoc, List.append_assoc, List.append_assoc]

end Parts

/-! ## Whole classes -/

/-- Every layout whose numbers lead to a class is read as that class. -/
theorem Reads.layout {f : Layout} {d : ClassDefinition} (hf : f.WellFormed)
    (h : f.Denotes d) : Reads readClass f.octets d := by
  obtain ⟨fields, methods, hmembers, hfields, hmethods⟩ := h.members
  have hnonempty : ¬ d.name.isEmpty = true := by simpa using h.name_ne_nil
  have hname : SuperAt f.constants f.this (some d.name) := h.name
  have hd : d = { name := d.name, superName := d.superName, members := fields ++ methods
                  accessFlags := f.accessFlags, interfaces := d.interfaces } := by
    rw [← h.accessFlags, ← hmembers]
  have hread : ∀ {kindOf : Text → MemberKind}, ∀ l : MemberLayout, l.WellFormed → ∀ m,
      l.Denotes f.constants kindOf m →
      Reads (readMember (poolOfConstants f.constants) kindOf) l.octets m :=
    fun l hl m hm => memberLayout hl hm
  refine bind (u4 (by decide)) ?_
  rw [if_neg (by decide)]
  refine bind (u2 hf.minor) (bind (u2 hf.major) ?_)
  rw [← List.append_assoc]
  refine bind (readPool hf.count hf.constants) (bind (u2 hf.accessFlags) ?_)
  refine bind (u2 hf.this) (bind_first (superAt hname) ?_)
  rw [Option.getD_some, if_neg hnonempty]
  refine bind (u2 hf.super) (bind_first (superAt h.superName) ?_)
  refine bind (countedOctets hf.interfaceCount (fun n hn t ht => interface (hf.interfaces n hn) ht)
    h.interfaces) ?_
  refine bind (countedOctets hf.fieldCount (fun l hl => hread l (hf.fields l hl)) hfields) ?_
  refine bind_last (countedOctets hf.methodCount (fun l hl => hread l (hf.methods l hl))
    hmethods) ?_
  rw [hd]
  exact pure _

/-- What is read as a class is a layout whose numbers lead to that class. -/
theorem Takes.readClass : Takes readClass fun bs d =>
    ∃ f : Layout, f.WellFormed ∧ bs = f.octets ∧ f.Denotes d := by
  intro c d c' h
  obtain ⟨number, c₁, hmagic, h₁⟩ := Reader.bind_eq_ok_iff.1 h
  obtain ⟨_, heq₁, rfl, -⟩ := u4 hmagic
  by_cases hne : number ≠ magic
  · rw [if_pos hne] at h₁
    cases h₁
  rw [if_neg hne] at h₁
  obtain rfl := Classical.not_not.1 hne
  obtain ⟨minor, c₂, hminor, h₂⟩ := Reader.bind_eq_ok_iff.1 h₁
  obtain ⟨major, c₃, hmajor, h₃⟩ := Reader.bind_eq_ok_iff.1 h₂
  obtain ⟨pool, c₄, hpool, h₄⟩ := Reader.bind_eq_ok_iff.1 h₃
  obtain ⟨flags, c₅, hflags, h₅⟩ := Reader.bind_eq_ok_iff.1 h₄
  obtain ⟨this, c₆, hthis, h₆⟩ := Reader.bind_eq_ok_iff.1 h₅
  obtain ⟨name, c₇, hname, h₇⟩ := Reader.bind_eq_ok_iff.1 h₆
  obtain ⟨_, heq₂, rfl, hminor⟩ := u2 hminor
  obtain ⟨_, heq₃, rfl, hmajor⟩ := u2 hmajor
  obtain ⟨_, heq₄, count, cs, hcount, hcs, rfl, rfl⟩ := readPool hpool
  obtain ⟨_, heq₅, rfl, hflags⟩ := u2 hflags
  obtain ⟨_, heq₆, rfl, hthis⟩ := u2 hthis
  obtain ⟨_, heq₇, rfl, hname⟩ := classAt this hname
  by_cases hempty : (name.getD []).isEmpty = true
  · rw [if_pos hempty] at h₇
    cases h₇
  rw [if_neg hempty] at h₇
  obtain ⟨super, c₈, hsuper, h₈⟩ := Reader.bind_eq_ok_iff.1 h₇
  obtain ⟨superName, c₉, hsuperName, h₉⟩ := Reader.bind_eq_ok_iff.1 h₈
  obtain ⟨interfaces, c₁₀, hinterfaces, h₁₀⟩ := Reader.bind_eq_ok_iff.1 h₉
  obtain ⟨fields, c₁₁, hfields, h₁₁⟩ := Reader.bind_eq_ok_iff.1 h₁₀
  obtain ⟨methods, c₁₂, hmethods, h₁₂⟩ := Reader.bind_eq_ok_iff.1 h₁₁
  cases h₁₂
  obtain ⟨_, heq₈, rfl, hsuper⟩ := u2 hsuper
  obtain ⟨_, heq₉, rfl, hsuperName⟩ := classAt super hsuperName
  obtain ⟨_, heq₁₀, numbers, hinterfaceCount, hle, hinterfaces, rfl⟩ := counted interface hinterfaces
  obtain ⟨_, heq₁₁, fieldLayouts, hfieldCount, hfieldLayouts, hfields, rfl⟩ :=
    counted readMember hfields
  obtain ⟨_, heq₁₂, methodLayouts, hmethodCount, hmethodLayouts, hmethods, rfl⟩ :=
    counted readMember hmethods
  cases name with
  | none => exact absurd rfl hempty
  | some t =>
    let f : Layout :=
      { minor, major, count, constants := cs, accessFlags := flags, this, super
        interfaces := numbers, fields := fieldLayouts, methods := methodLayouts }
    refine ⟨f.octets, ?_, f, ?_, rfl, ?_⟩
    · rw [heq₁, heq₂, heq₃, heq₄, heq₅, heq₆, heq₇, heq₈, heq₉, heq₁₀, heq₁₁, heq₁₂]
      simp [f, Layout.octets, magic]
    · exact
        { minor := hminor
          major := hmajor
          count := hcount
          constants := hcs
          accessFlags := hflags
          this := hthis
          super := hsuper
          interfaceCount := hinterfaceCount
          interfaces := hle
          fieldCount := hfieldCount
          fields := hfieldLayouts
          methodCount := hmethodCount
          methods := hmethodLayouts }
    · exact
        { accessFlags := rfl
          name := hname
          name_ne_nil := by simpa using hempty
          superName := hsuperName
          interfaces := hinterfaces
          members := ⟨fields, methods, rfl, hfields, hmethods⟩ }

/-! ## Two layouts of one meaning -/

theorem MemberLayout.Denotes.of_agrees {cs cs' : List Constant} {kindOf : Text → MemberKind}
    {l l' : MemberLayout} {m : Member} (h : l.Denotes cs kindOf m) (hl : l.Agrees cs cs' l') :
    l'.Denotes cs' kindOf m where
  accessFlags := hl.accessFlags ▸ h.accessFlags
  name := (hl.name _).1 h.name
  descriptor := (hl.descriptor _).1 h.descriptor
  kind := h.kind

/-- What agrees item by item with what stands for the items of a list stands for them too. -/
theorem forall₂_of_agrees {R : α → γ → Prop} {S : β → γ → Prop} {A : α → β → Prop}
    (h : ∀ a b x, A a b → R a x → S b x) {as : List α} {bs : List β} {xs : List γ}
    (hagrees : List.Forall₂ A as bs) (hxs : List.Forall₂ R as xs) : List.Forall₂ S bs xs := by
  induction hagrees generalizing xs with
  | nil =>
    cases hxs
    exact .nil
  | cons hab _ ih =>
    cases hxs with
    | cons hx hrest => exact .cons (h _ _ _ hab hx) (ih hrest)

theorem Layout.Denotes.of_agrees {f f' : Layout} {d : ClassDefinition} (h : f.Denotes d)
    (hf : f.Agrees f') : f'.Denotes d := by
  obtain ⟨fields, methods, hmembers, hfields, hmethods⟩ := h.members
  refine ⟨hf.accessFlags ▸ h.accessFlags, (hf.this _).1 h.name, h.name_ne_nil,
    (hf.super _).1 h.superName, ?_, fields, methods, hmembers, ?_, ?_⟩
  · exact forall₂_of_agrees (fun _ _ t hn ht => (hn t).1 ht) hf.interfaces h.interfaces
  · exact forall₂_of_agrees (fun _ _ _ hl hm => hm.of_agrees hl) hf.fields hfields
  · exact forall₂_of_agrees (fun _ _ _ hl hm => hm.of_agrees hl) hf.methods hmethods

theorem read_eq_ok_iff_readClass {b : Bytes} {d : ClassDefinition} :
    read b = .ok d ↔ ∃ c, readClass ⟨0, b⟩ = .ok (d, c) := by
  rw [read]
  cases readClass ⟨0, b⟩ with
  | error e => simp
  | ok p => simp [Prod.ext_iff]

theorem read_of_denotes {b : Bytes} {f : Layout} {d : ClassDefinition} (hf : f.WellFormed)
    (hb : f.octets <+: b) (hd : f.Denotes d) : read b = .ok d := by
  obtain ⟨rest, rfl⟩ := hb
  exact read_eq_ok_iff_readClass.2 ⟨_, Reads.layout hf hd 0 rest⟩

/-- Exactly the octets of the grammar are read. A class is read from octets if and only if they begin
with a well-formed layout whose numbers lead to that class; everything else is refused with an
error. So what is read is told by what the numbers lead to: neither the versions nor the other
constants nor the attributes nor the octets behind the class have a part in it. -/
theorem read_eq_ok_iff_layout (b : Bytes) :
    (∀ d, read b = .ok d ↔ ∃ f : Layout, f.WellFormed ∧ f.octets <+: b ∧ f.Denotes d) ∧
    ((∃ e, read b = .error e) ↔
      ¬ ∃ f : Layout, f.WellFormed ∧ f.octets <+: b ∧ ∃ d, f.Denotes d) ∧
    (∀ (f f' : Layout) (rest : Bytes) (d : ClassDefinition), f.WellFormed → f'.WellFormed →
      f.Agrees f' → f.octets <+: b → f.Denotes d →
      read b = .ok d ∧ read (f'.octets ++ rest) = .ok d) := by
  have hiff : ∀ d, read b = .ok d ↔
      ∃ f : Layout, f.WellFormed ∧ f.octets <+: b ∧ f.Denotes d := by
    intro d
    constructor
    · intro h
      obtain ⟨c, hc⟩ := read_eq_ok_iff_readClass.1 h
      obtain ⟨_, hrest, f, hf, rfl, hd⟩ := Takes.readClass hc
      exact ⟨f, hf, ⟨c.rest, hrest.symm⟩, hd⟩
    · rintro ⟨f, hf, hb, hd⟩
      exact read_of_denotes hf hb hd
  refine ⟨hiff, ⟨?_, ?_⟩, ?_⟩
  · rintro ⟨e, he⟩ ⟨f, hf, hb, d, hd⟩
    rw [read_of_denotes hf hb hd] at he
    cases he
  · intro hnone
    cases hread : read b with
    | error e => exact ⟨e, rfl⟩
    | ok d =>
      obtain ⟨f, hf, hb, hd⟩ := (hiff d).1 hread
      exact absurd ⟨f, hf, hb, d, hd⟩ hnone
  · intro f f' rest d hf hf' hagrees hb hd
    exact ⟨read_of_denotes hf hb hd,
      read_of_denotes hf' (List.prefix_append ..) (hd.of_agrees hagrees)⟩

end ClassFile

end JndiScan
