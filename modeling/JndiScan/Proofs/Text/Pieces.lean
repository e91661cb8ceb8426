/-
Octets that are read piece by piece. What comes after a text that was read is read as if nothing
stood before it, and the octets before a fault are a text; so a text may be cut anywhere between its
code points. Where it is cut within one, the fault is that more is missing.
-/
import JndiScan.Proofs.Text.Utf8

namespace JndiScan.Text

namespace Utf8

/-- The octets are those of a code point, whatever stands before and behind them. -/
structure Writes (c : CodePoint) (piece : List UInt8) : Prop where
  ne_nil : piece ≠ []
  decodeFrom_append (done : Text) (position : Nat) (rest : List UInt8) :
    decodeFrom .strict done position (piece ++ rest) =
      decodeFrom .strict (c :: done) (position + piece.length) rest

/-- The octets are faulted where they start, and unless some are missing at their end they stay so
whatever stands behind them. -/
structure Faults (bs : List UInt8) (octet : UInt8) (length : Nat) (reason : Reason) : Prop where
  decodeFrom_eq (done : Text) (position : Nat) :
    decodeFrom .strict done position bs = .error ⟨octet, position, length, reason⟩
  decodeFrom_append (h : reason ≠ .unexpectedEnd) (done : Text) (position : Nat)
    (rest : List UInt8) : decodeFrom .strict done position (bs ++ rest) =
      .error ⟨octet, position, length, reason⟩

/-- What octets begin with: nothing, a code point, or a fault. -/
theorem decodeFrom_cases (bs : List UInt8) :
    bs = [] ∨ (∃ c piece rest, Writes c piece ∧ bs = piece ++ rest) ∨
      ∃ octet length reason, Faults bs octet length reason := by
  fun_cases decodeFrom .strict [] 0 bs
  case case1 => exact .inl rfl
  case case2 b0 r0 h0 =>
    exact .inr (.inl ⟨_, [b0], r0,
      ⟨List.cons_ne_nil _ _, fun _ _ _ => decodeFrom_one (toNat_lt_of_lt h0)⟩, rfl⟩)
  case case5 b0 h0 h1 h2 b1 r1 hb1 c =>
    exact .inr (.inl ⟨c, [b0, b1], r1, ⟨List.cons_ne_nil _ _, fun _ _ _ =>
      decodeFrom_two (le_toNat_of_not_lt h1) (toNat_lt_of_lt h2) hb1⟩, rfl⟩)
  case case10 b0 h0 h1 h2 h3 b1 hb1 b2 r2 hb2 c =>
    exact .inr (.inl ⟨c, [b0, b1, b2], r2, ⟨List.cons_ne_nil _ _, fun _ _ _ =>
      decodeFrom_three (le_toNat_of_not_lt h2) (toNat_lt_of_lt h3) hb1 hb2⟩, rfl⟩)
  case case17 b0 h0 h1 h2 h3 h4 b1 hb1 b2 hb2 b3 r3 hb3 c =>
    exact .inr (.inl ⟨c, [b0, b1, b2, b3], r3, ⟨List.cons_ne_nil _ _, fun _ _ _ =>
      decodeFrom_four (le_toNat_of_not_lt h3) (toNat_lt_of_lt h4) hb1 hb2 hb3⟩, rfl⟩)
  all_goals
    refine .inr (.inr ⟨?_, ?_, ?_, ⟨fun done position => ?_, fun h done position rest => ?_⟩⟩)
    rotate_left 3
    · rw [decodeFrom.eq_def]
      simp only [*, if_true, if_false, Bool.false_eq_true]
      rfl
    · first
      | exact absurd rfl h
      | rw [decodeFrom.eq_def]
        simp only [*, List.cons_append, if_true, if_false, Bool.false_eq_true]

/-- Octets are faulted at once, or none are left, or the rest comes after those of a code point. -/
theorem piece_induction {P : List UInt8 → Prop} (nil : P [])
    (faults : ∀ bs octet length reason, Faults bs octet length reason → P bs)
    (writes : ∀ c piece rest, Writes c piece → P rest → P (piece ++ rest)) (bs : List UInt8) :
    P bs := by
  obtain rfl | ⟨c, piece, rest, hpiece, rfl⟩ | ⟨octet, length, reason, hfaults⟩ :=
    decodeFrom_cases bs
  · exact nil
  · have hshorter : rest.length < (piece ++ rest).length := by
      rw [List.length_append]
      have := List.length_pos_iff.2 hpiece.ne_nil
      omega
    exact writes c piece rest hpiece (piece_induction nil faults writes rest)
  · exact faults bs octet length reason hfaults
  termination_by bs.length

section Reading

variable {done t : Text} {position : Nat} {bs : List UInt8} {fault : Fault}

/-- What is read first only stands before what is read then. -/
theorem decodeFrom_append (h : decodeFrom .strict done position bs = .ok t) (rest : List UInt8) :
    decodeFrom .strict done position (bs ++ rest) =
      decodeFrom .strict t.reverse (position + bs.length) rest := by
  induction bs using piece_induction generalizing done position with
  | nil =>
    rw [decodeFrom] at h
    cases h
    rw [List.reverse_reverse]
    rfl
  | faults _ _ _ _ hfaults =>
    rw [hfaults.decodeFrom_eq] at h
    cases h
  | writes c piece bs hpiece ih =>
    rw [hpiece.decodeFrom_append] at h
    rw [List.append_assoc, hpiece.decodeFrom_append, ih h, List.length_append, Nat.add_assoc]

/-- A code point takes an octet at least. -/
theorem length_le_of_decodeFrom (h : decodeFrom .strict done position bs = .ok t) :
    t.length ≤ done.length + bs.length := by
  induction bs using piece_induction generalizing done position with
  | nil =>
    rw [decodeFrom] at h
    cases h
    simp
  | faults _ _ _ _ hfaults =>
    rw [hfaults.decodeFrom_eq] at h
    cases h
  | writes c piece bs hpiece ih =>
    rw [hpiece.decodeFrom_append] at h
    have hrest := ih h
    have hpos := List.length_pos_iff.2 hpiece.ne_nil
    rw [List.length_cons] at hrest
    rw [List.length_append]
    omega

end Reading

end Utf8

/-! ## Octets of a text -/

/-- The octets are those of a text without halves of surrogate pairs. -/
def IsUtf8 (bs : List UInt8) : Prop := ∃ t, ofUtf8 .strict bs = .ok t

section IsUtf8

variable {xs ys bs : List UInt8} {fault : Utf8.Fault}

open Utf8

/-- It does not matter where reading starts, nor what was read before. -/
theorem isUtf8_iff (done : Text) (position : Nat) :
    IsUtf8 bs ↔ ∃ t, decodeFrom .strict done position bs = .ok t := by
  have hany : ∀ (done done' : Text) (position position' : Nat),
      (∃ t, decodeFrom .strict done position bs = .ok t) →
        ∃ t, decodeFrom .strict done' position' bs = .ok t := by
    induction bs using piece_induction with
    | nil => exact fun _ done' _ _ _ => ⟨done'.reverse, by rw [decodeFrom]⟩
    | faults _ _ _ _ hfaults =>
      rintro done done' position position' ⟨t, h⟩
      rw [hfaults.decodeFrom_eq] at h
      cases h
    | writes c piece bs hpiece ih =>
      intro done done' position position' h
      simp only [hpiece.decodeFrom_append] at h ⊢
      exact ih _ _ _ _ h
  exact ⟨hany _ _ _ _, hany _ _ _ _⟩

theorem IsUtf8.append_iff (h : IsUtf8 xs) : IsUtf8 (xs ++ ys) ↔ IsUtf8 ys := by
  obtain ⟨t, ht⟩ := h
  rw [ofUtf8] at ht
  rw [isUtf8_iff [] 0, decodeFrom_append ht, ← isUtf8_iff]

theorem Utf8.Writes.isUtf8 {c : CodePoint} {piece : List UInt8} (h : Writes c piece) :
    IsUtf8 piece := by
  refine ⟨[c], ?_⟩
  rw [ofUtf8, ← List.append_nil piece, h.decodeFrom_append]
  rfl

theorem not_isUtf8 (h : ofUtf8 .strict bs = .error fault) : ¬ IsUtf8 bs := by
  rintro ⟨t, ht⟩
  rw [h] at ht
  cases ht

/-- Before a fault stand the octets of a text. -/
theorem exists_isUtf8_of_decodeFrom {done : Text} {position : Nat}
    (h : decodeFrom .strict done position bs = .error fault) :
    ∃ good bad, bs = good ++ bad ∧ fault.position = position + good.length ∧ IsUtf8 good := by
  induction bs using piece_induction generalizing done position with
  | nil =>
    rw [decodeFrom] at h
    cases h
  | faults bs _ _ _ hfaults =>
    rw [hfaults.decodeFrom_eq] at h
    cases h
    exact ⟨[], bs, rfl, rfl, [], rfl⟩
  | writes c piece bs hpiece ih =>
    rw [hpiece.decodeFrom_append] at h
    obtain ⟨good, bad, rfl, hposition, hgood⟩ := ih h
    refine ⟨piece ++ good, bad, by rw [List.append_assoc], ?_, hpiece.isUtf8.append_iff.2 hgood⟩
    rw [hposition, List.length_append, Nat.add_assoc]

theorem isUtf8_take (h : ofUtf8 .strict bs = .error fault) : IsUtf8 (bs.take fault.position) := by
  obtain ⟨good, bad, rfl, hposition, hgood⟩ := exists_isUtf8_of_decodeFrom h
  rw [hposition, Nat.zero_add, List.take_left]
  exact hgood

/-- Octets of a text that are cut off are faulted only because some are missing. -/
theorem reason_eq_unexpectedEnd {done : Text} {position : Nat}
    (h : decodeFrom .strict done position xs = .error fault) (hall : IsUtf8 (xs ++ ys)) :
    fault.reason = .unexpectedEnd := by
  induction xs using piece_induction generalizing done position with
  | nil =>
    rw [decodeFrom] at h
    cases h
  | faults xs octet length reason hfaults =>
    rw [hfaults.decodeFrom_eq] at h
    cases h
    by_cases hreason : reason = .unexpectedEnd
    · exact hreason
    · obtain ⟨t, ht⟩ := hall
      rw [ofUtf8, hfaults.decodeFrom_append hreason] at ht
      cases ht
  | writes c piece xs hpiece ih =>
    rw [hpiece.decodeFrom_append] at h
    rw [List.append_assoc, hpiece.isUtf8.append_iff] at hall
    exact ih h hall

end IsUtf8

end JndiScan.Text
