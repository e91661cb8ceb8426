/-
The text that the system gives for a name stands for the octets of the name, whatever they are: octets
that are no UTF-8 are told by halves of surrogate pairs that stand for them. So names that are listed
as one text are one name.
-/
import JndiScan.Proofs.Files.Path
import JndiScan.Proofs.Text.Pieces

namespace JndiScan.Path

open Text (ofUtf8 isUtf8_take)
open Text.Utf8

/-! ## Octets that are UTF-8 -/

theorem octets_cons (c : CodePoint) (t : Text) :
    octets (c :: t) = (if standsForOctet c then [c.val.toUInt8] else encodeOne c) ++ octets t := rfl

theorem standsForOctet_iff {c : CodePoint} :
    standsForOctet c = true ↔ 0xDC80 ≤ c.val ∧ c.val ≤ 0xDCFF := by
  simp [standsForOctet]

/-- A code point that stands for no octet has the octets that it is written in. -/
theorem octets_cons_of_encodeOne {c : CodePoint} {piece : List UInt8}
    (hc : c.val < 0xDC80 ∨ 0xDCFF < c.val) (hpiece : encodeOne c = piece) (t : Text) :
    octets (c :: t) = piece ++ octets t := by
  have hother : ¬ standsForOctet c = true := by
    rw [standsForOctet_iff]
    omega
  rw [octets_cons, if_neg hother, hpiece]

theorem isSecond_strict_iff {b0 b1 : UInt8} :
    isSecond .strict b0 b1 = true ↔
      isSecond .lenient b0 b1 = true ∧ (b0.toNat = 0xED → b1.toNat < 0xA0) := by
  rw [isSecond_lenient_iff]
  simp [isSecond, isContinuation_iff, UInt8.lt_iff_toNat_lt, UInt8.le_iff_toNat_le,
    ← UInt8.toNat_inj]
  omega

section Reading

variable {b0 b1 b2 b3 : UInt8}

/-- No half of a surrogate pair is among the code points of three octets that are read strictly. -/
theorem apart_of_three (h : 0xE0 ≤ b0.toNat) (h' : b0.toNat < 0xF0)
    (hb1 : isSecond .strict b0 b1 = true) :
    b0.toNat % 16 * 4096 + low6 b1 * 64 + low6 b2 < 0xDC80 ∨
      0xDCFF < b0.toNat % 16 * 4096 + low6 b1 * 64 + low6 b2 := by
  rw [isSecond_strict_iff, isSecond_lenient_iff] at hb1
  rw [low6, low6]
  omega

theorem apart_of_four (h : 0xF0 ≤ b0.toNat) (h' : b0.toNat < 0xF5)
    (hb1 : isSecond .strict b0 b1 = true) (b2 b3 : UInt8) :
    0xDCFF < b0.toNat % 8 * 262144 + low6 b1 * 4096 + low6 b2 * 64 + low6 b3 ∧
      b0.toNat % 8 * 262144 + low6 b1 * 4096 + low6 b2 * 64 + low6 b3 < 0x110000 := by
  rw [isSecond_strict_iff, isSecond_lenient_iff] at hb1
  rw [low6, low6, low6]
  omega

/-- The octets of a text that was read strictly are those that it was read from. -/
theorem exists_octets_of_decodeFrom {done t : Text} {position : Nat} {bs : List UInt8}
    (h : decodeFrom .strict done position bs = .ok t) :
    ∃ u : Text, t = done.reverse ++ u ∧ octets u = bs := by
  fun_induction decodeFrom .strict done position bs with
  | case1 done position =>
    cases h
    exact ⟨[], by simp, rfl⟩
  | case2 done position b0 r0 h0 ih =>
    obtain ⟨u, ht, hbs⟩ := ih h
    have hb0 : b0.toNat < 0x80 := toNat_lt_of_lt h0
    have hval : (CodePoint.ofOctet b0).val = b0.toNat := rfl
    refine ⟨CodePoint.ofOctet b0 :: u, by simp [ht], ?_⟩
    rw [octets_cons_of_encodeOne (.inl (by rw [hval]; omega)) (encodeOne_ofOctet hb0), hbs]
    rfl
  | case5 done position b0 h0 h1 h2 b1 r1 hb1 c ih =>
    obtain ⟨u, ht, hbs⟩ := ih h
    have hc : encodeOne c = [b0, b1] :=
      encodeOne_two (le_toNat_of_not_lt h1) (toNat_lt_of_lt h2) hb1
    have hval : c.val = b0.toNat % 32 * 64 + low6 b1 := val_ofNat (by rw [low6]; omega)
    refine ⟨c :: u, by simp [ht], ?_⟩
    rw [octets_cons_of_encodeOne (.inl (by rw [hval, low6]; omega)) hc, hbs]
    rfl
  | case10 done position b0 h0 h1 h2 h3 b1 hb1 b2 r2 hb2 c ih =>
    obtain ⟨u, ht, hbs⟩ := ih h
    have hc : encodeOne c = [b0, b1, b2] := encodeOne_three (le_toNat_of_not_lt h2)
      (toNat_lt_of_lt h3) (isSecond_strict_iff.1 hb1).1 hb2
    have hval : c.val = b0.toNat % 16 * 4096 + low6 b1 * 64 + low6 b2 :=
      val_ofNat (by rw [low6, low6]; omega)
    refine ⟨c :: u, by simp [ht], ?_⟩
    rw [octets_cons_of_encodeOne (hval ▸ apart_of_three (le_toNat_of_not_lt h2)
      (toNat_lt_of_lt h3) hb1) hc, hbs]
    rfl
  | case17 done position b0 h0 h1 h2 h3 h4 b1 hb1 b2 hb2 b3 r3 hb3 c ih =>
    obtain ⟨u, ht, hbs⟩ := ih h
    have hc : encodeOne c = [b0, b1, b2, b3] := encodeOne_four (le_toNat_of_not_lt h3)
      (toNat_lt_of_lt h4) (isSecond_strict_iff.1 hb1).1 hb2 hb3
    obtain ⟨happart, hlt⟩ :=
      apart_of_four (le_toNat_of_not_lt h3) (toNat_lt_of_lt h4) hb1 b2 b3
    have hval : c.val = _ := val_ofNat hlt
    refine ⟨c :: u, by simp [ht], ?_⟩
    rw [octets_cons_of_encodeOne (.inr (hval ▸ happart)) hc, hbs]
    rfl
  -- All other octets are faulted.
  | _ => cases h

theorem octets_of_ofUtf8 {t : Text} {bs : List UInt8} (h : ofUtf8 .strict bs = .ok t) :
    octets t = bs := by
  obtain ⟨u, rfl, hbs⟩ := exists_octets_of_decodeFrom h
  exact hbs

end Reading

/-! ## Octets that are not -/

/-- A fault covers octets behind those of a text, one at least, and none of them is ASCII. -/
structure Covers (fault : Fault) (position : Nat) (bs good bad rest : List UInt8) : Prop where
  octets_eq : bs = good ++ (bad ++ rest)
  position_eq : fault.position = position + good.length
  length_eq : fault.length = bad.length
  ne_nil : bad ≠ []
  high : ∀ b ∈ bad, 0x80 ≤ b.toNat

theorem Covers.append {fault : Fault} {position : Nat} {bs good bad rest : List UInt8}
    (piece : List UInt8) (h : Covers fault (position + piece.length) bs good bad rest) :
    Covers fault position (piece ++ bs) (piece ++ good) bad rest where
  octets_eq := by rw [h.octets_eq, List.append_assoc]
  position_eq := by rw [h.position_eq, List.length_append, Nat.add_assoc]
  length_eq := h.length_eq
  ne_nil := h.ne_nil
  high := h.high

theorem toNat_ge_of_isSecond {mode : Mode} {b0 b1 : UInt8} (h : isSecond mode b0 b1 = true) :
    0x80 ≤ b1.toNat := by
  have hcontinues : isContinuation b1 = true := by
    simp only [isSecond, Bool.and_eq_true] at h
    exact h.1.1.1.1
  exact (isContinuation_iff.1 hcontinues).1

section Covers

variable {b0 b1 b2 : UInt8} {position : Nat} {reason : Reason}

theorem covers_one (h0 : ¬ b0 < 0x80) (rest : List UInt8) :
    Covers ⟨b0, position, 1, reason⟩ position (b0 :: rest) [] [b0] rest where
  octets_eq := rfl
  position_eq := rfl
  length_eq := rfl
  ne_nil := List.cons_ne_nil b0 []
  high := List.forall_mem_singleton.2 (le_toNat_of_not_lt h0)

theorem covers_two {mode : Mode} (h0 : ¬ b0 < 0x80) (hb1 : isSecond mode b0 b1 = true)
    (rest : List UInt8) :
    Covers ⟨b0, position, 2, reason⟩ position (b0 :: b1 :: rest) [] [b0, b1] rest where
  octets_eq := rfl
  position_eq := rfl
  length_eq := rfl
  ne_nil := List.cons_ne_nil b0 [b1]
  high := List.forall_mem_cons.2
    ⟨le_toNat_of_not_lt h0, List.forall_mem_singleton.2 (toNat_ge_of_isSecond hb1)⟩

theorem covers_three {mode : Mode} (h0 : ¬ b0 < 0x80) (hb1 : isSecond mode b0 b1 = true)
    (hb2 : isContinuation b2 = true) (rest : List UInt8) :
    Covers ⟨b0, position, 3, reason⟩ position (b0 :: b1 :: b2 :: rest) [] [b0, b1, b2] rest where
  octets_eq := rfl
  position_eq := rfl
  length_eq := rfl
  ne_nil := List.cons_ne_nil b0 [b1, b2]
  high := List.forall_mem_cons.2 ⟨le_toNat_of_not_lt h0, List.forall_mem_cons.2
    ⟨toNat_ge_of_isSecond hb1, List.forall_mem_singleton.2 (isContinuation_iff.1 hb2).1⟩⟩

end Covers

theorem exists_covers {done : Text} {position : Nat} {bs : List UInt8} {fault : Fault}
    (h : decodeFrom .strict done position bs = .error fault) :
    ∃ good bad rest, Covers fault position bs good bad rest := by
  fun_induction decodeFrom .strict done position bs
  case case1 => cases h
  case case2 b0 r0 h0 ih =>
    obtain ⟨good, bad, rest, hcovers⟩ := ih h
    exact ⟨_, bad, rest, hcovers.append [b0]⟩
  case case5 b0 h0 h1 h2 b1 r1 hb1 c ih =>
    obtain ⟨good, bad, rest, hcovers⟩ := ih h
    exact ⟨_, bad, rest, hcovers.append [b0, b1]⟩
  case case10 b0 h0 h1 h2 h3 b1 hb1 b2 r2 hb2 c ih =>
    obtain ⟨good, bad, rest, hcovers⟩ := ih h
    exact ⟨_, bad, rest, hcovers.append [b0, b1, b2]⟩
  case case17 b0 h0 h1 h2 h3 h4 b1 hb1 b2 hb2 b3 r3 hb3 c ih =>
    obtain ⟨good, bad, rest, hcovers⟩ := ih h
    exact ⟨_, bad, rest, hcovers.append [b0, b1, b2, b3]⟩
  -- Everywhere else a fault is met, at one octet, two or three.
  all_goals
    cases h
    first
    | exact ⟨_, _, _, covers_one ‹_› _⟩
    | exact ⟨_, _, _, covers_two ‹_› ‹_› _⟩
    | exact ⟨_, _, _, covers_three ‹_› ‹_› ‹_› _⟩

/-! ## Names as they are listed -/

theorem octets_append_standIn (t : Text) {bs : List UInt8} (h : ∀ b ∈ bs, 0x80 ≤ b.toNat) :
    octets (bs.map standIn ++ t) = bs ++ octets t := by
  induction bs with
  | nil => rfl
  | cons b bs ih =>
    obtain ⟨hb, hbs⟩ := List.forall_mem_cons.1 h
    have hlt := b.toNat_lt
    have hval : (standIn b).val = 0xDC00 + b.toNat := val_ofNat (by omega)
    have hstands : standsForOctet (standIn b) = true := standsForOctet_iff.2 (by omega)
    have hsame : (standIn b).val.toUInt8 = b := by
      rw [hval, ← UInt8.toNat_inj]
      simp
    rw [List.map_cons, List.cons_append, octets_cons, if_pos hstands, hsame, ih hbs]
    rfl

theorem octets_ofOctets {bs : List UInt8} {fuel : Nat} (h : bs.length ≤ fuel) :
    octets (ofOctets bs fuel) = bs := by
  induction fuel generalizing bs with
  | zero =>
    cases List.length_eq_zero_iff.1 (Nat.le_zero.1 h)
    rfl
  | succ fuel ih =>
    rw [ofOctets]
    cases hread : ofUtf8 .strict bs with
    | ok t => exact octets_of_ofUtf8 hread
    | error fault =>
      obtain ⟨good, bad, rest, hcovers⟩ := exists_covers hread
      obtain ⟨rfl, hposition, hlength, hne, hhigh⟩ := hcovers
      rw [Nat.zero_add] at hposition
      obtain ⟨before, hbefore⟩ := isUtf8_take hread
      rw [hposition, List.take_left] at hbefore
      have hrest : octets (ofOctets rest fuel) = rest := by
        refine ih ?_
        have hpos := List.length_pos_iff.2 hne
        rw [List.length_append, List.length_append] at h
        omega
      simp only [hposition, hlength, List.take_left, List.drop_left, hbefore]
      show octets (before ++ bad.map standIn ++ ofOctets rest fuel) = _
      rw [List.append_assoc, octets_append, octets_append_standIn _ hhigh, hrest,
        octets_of_ofUtf8 hbefore]

/-- A listed name has the octets of the name. -/
theorem octets_listed (t : Text) : octets (listed t) = octets t := octets_ofOctets (Nat.le_refl _)

end JndiScan.Path
