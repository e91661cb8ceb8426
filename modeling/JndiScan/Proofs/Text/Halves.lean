/-
Halves of surrogate pairs in texts. A high half directly before a low one stands for one code
point, and a text is joined by putting that code point in the place of every such pair, from the
left. A joined text holds no pair any more, so joining changes nothing but texts that hold one.
-/
import JndiScan.Text.Basic
import Mathlib.Data.List.Chain

namespace JndiScan

namespace CodePoint

/-! ## Halves -/

/-- The first half of a surrogate pair. -/
def isHigh (c : CodePoint) : Bool := 0xD800 ≤ c.val && c.val ≤ 0xDBFF

/-- The second half of a surrogate pair. -/
def isLow (c : CodePoint) : Bool := 0xDC00 ≤ c.val && c.val ≤ 0xDFFF

/-- The code point that two halves stand for. -/
def pair (high low : CodePoint) : CodePoint :=
  .ofNat (0x10000 + (high.val - 0xD800) * 0x400 + (low.val - 0xDC00))

section

variable {c high low : CodePoint}

theorem isHigh_iff : c.isHigh = true ↔ 0xD800 ≤ c.val ∧ c.val ≤ 0xDBFF := by
  simp [isHigh]

theorem isLow_iff : c.isLow = true ↔ 0xDC00 ≤ c.val ∧ c.val ≤ 0xDFFF := by
  simp [isLow]

theorem isLow_eq_false_of_isHigh (h : c.isHigh = true) : c.isLow = false := by
  rw [isHigh_iff] at h
  rw [Bool.eq_false_iff, Ne, isLow_iff]
  omega

/-- The number of a pair: it is never that of a half. -/
theorem val_pair (hh : high.isHigh = true) (hl : low.isLow = true) :
    (pair high low).val = 0x10000 + (high.val - 0xD800) * 0x400 + (low.val - 0xDC00) := by
  rw [isHigh_iff] at hh
  rw [isLow_iff] at hl
  rw [pair, ofNat, dif_pos (by omega)]

theorem isLow_pair (hh : high.isHigh = true) (hl : low.isLow = true) :
    (pair high low).isLow = false := by
  rw [Bool.eq_false_iff, Ne, isLow_iff, val_pair hh hl]
  omega

theorem isHigh_pair (hh : high.isHigh = true) (hl : low.isLow = true) :
    (pair high low).isHigh = false := by
  rw [Bool.eq_false_iff, Ne, isHigh_iff, val_pair hh hl]
  omega

/-- Every code point with more than four hexadecimal digits is that of a pair. -/
theorem exists_pair (h : 0x10000 ≤ c.val) :
    ∃ high low : CodePoint, high.isHigh = true ∧ low.isLow = true ∧ c = pair high low := by
  have hc := c.isLt
  have hhigh : 0xD800 + (c.val - 0x10000) / 0x400 < 0x110000 := by omega
  have hlow : 0xDC00 + (c.val - 0x10000) % 0x400 < 0x110000 := by omega
  have hh : isHigh ⟨_, hhigh⟩ = true := isHigh_iff.2 (by simp only; omega)
  have hl : isLow ⟨_, hlow⟩ = true := isLow_iff.2 (by simp only; omega)
  refine ⟨⟨_, hhigh⟩, ⟨_, hlow⟩, hh, hl, Fin.ext ?_⟩
  rw [val_pair hh hl]
  simp only
  omega

end

end CodePoint

namespace Text

/-! ## Joining -/

/-- The text with the code point of every pair in the place of its halves. -/
def joined : Text → Text
  | [] => []
  | [c] => [c]
  | high :: low :: rest =>
    if high.isHigh && low.isLow then .pair high low :: joined rest
    else high :: joined (low :: rest)

/-- No high half stands directly before a low one. -/
def Apart (t : Text) : Prop := t.IsChain fun high low => ¬ (high.isHigh = true ∧ low.isLow = true)

instance (t : Text) : Decidable t.Apart := by
  unfold Apart
  infer_instance

section

variable {high low : CodePoint} {rest t : Text}

theorem joined_pair (hh : high.isHigh = true) (hl : low.isLow = true) :
    joined (high :: low :: rest) = .pair high low :: joined rest := by
  rw [joined, hh, hl]
  rfl

theorem joined_apart (h : ¬ (high.isHigh = true ∧ low.isLow = true)) :
    joined (high :: low :: rest) = high :: joined (low :: rest) := by
  rw [joined, if_neg (by simpa using h)]

/-- Joining brings no low half to the front. -/
theorem isLow_head_joined {c : CodePoint} (hc : c ∈ t.joined.head?) (hl : c.isLow = true) :
    c ∈ t.head? := by
  fun_cases joined t with
  | case1 => exact hc
  | case2 => exact hc
  | case3 high low rest h =>
    rw [Bool.and_eq_true] at h
    rw [joined_pair h.1 h.2, List.head?_cons, Option.mem_some] at hc
    subst hc
    rw [CodePoint.isLow_pair h.1 h.2] at hl
    cases hl
  | case4 high low rest h =>
    rw [joined_apart (by simpa using h)] at hc
    exact hc

/-- A joined text holds no pair. -/
theorem apart_joined (t : Text) : t.joined.Apart := by
  induction t using joined.induct with
  | case1 => exact .nil
  | case2 c => exact .singleton c
  | case3 high low rest h ih =>
    rw [Bool.and_eq_true] at h
    rw [joined_pair h.1 h.2]
    refine List.isChain_cons.2 ⟨fun c _ hp => ?_, ih⟩
    rw [CodePoint.isHigh_pair h.1 h.2] at hp
    cases hp.1
  | case4 high low rest h ih =>
    have hapart : ¬ (high.isHigh = true ∧ low.isLow = true) := by simpa using h
    rw [joined_apart hapart]
    refine List.isChain_cons.2 ⟨fun c hc hp => ?_, ih⟩
    -- What stands first in the joined rest is the low half that stood there before.
    have hfirst := isLow_head_joined hc hp.2
    rw [List.head?_cons, Option.mem_some] at hfirst
    subst hfirst
    exact hapart hp

/-- Joining changes exactly the texts that hold a pair. -/
theorem joined_eq_self_iff : t.joined = t ↔ t.Apart := by
  constructor
  · intro h
    rw [← h]
    exact apart_joined t
  · intro h
    induction t using joined.induct with
    | case1 => rfl
    | case2 => rfl
    | case3 high low rest hp ih =>
      rw [Bool.and_eq_true] at hp
      exact absurd hp (List.isChain_cons_cons.1 h).1
    | case4 high low rest hp ih =>
      rw [joined_apart (by simpa using hp), ih (List.isChain_cons_cons.1 h).2]

end

end Text

end JndiScan
