/-
Reading what was written in UTF-8 gives the text again, halves of surrogate pairs included: the
octets of one code point are read as that code point, whatever stands behind them. One octet, two,
three and four are read by rules of their own, which are said of the numbers of the octets. Nothing
else is read: octets that give a text are the octets that the text is written in.
-/
import JndiScan.Text.Utf8

namespace JndiScan.Text.Utf8

/-! ## Octets by their numbers -/

/-- An octet made of a small number has that number. -/
theorem toNat_toUInt8 {n : Nat} (h : n < 256) : n.toUInt8.toNat = n := by
  simp [Nat.toUInt8, Nat.mod_eq_of_lt h]

/-- Octets are compared as their numbers. -/
theorem not_lt_of_toNat_le {b c : UInt8} (h : c.toNat ≤ b.toNat) : ¬ b < c :=
  UInt8.not_lt.2 (UInt8.le_iff_toNat_le.2 h)

theorem isContinuation_iff {b : UInt8} :
    isContinuation b = true ↔ 0x80 ≤ b.toNat ∧ b.toNat ≤ 0xBF := by
  simp [isContinuation, UInt8.le_iff_toNat_le]

theorem isSecond_lenient_iff {b0 b1 : UInt8} :
    isSecond .lenient b0 b1 = true ↔
      (0x80 ≤ b1.toNat ∧ b1.toNat ≤ 0xBF) ∧ (b0.toNat = 0xE0 → 0xA0 ≤ b1.toNat) ∧
        (b0.toNat = 0xF0 → 0x90 ≤ b1.toNat) ∧ (b0.toNat = 0xF4 → b1.toNat < 0x90) := by
  simp [isSecond, isContinuation_iff, UInt8.lt_iff_toNat_lt, UInt8.le_iff_toNat_le,
    ← UInt8.toNat_inj]
  omega

/-! ## Rules of reading -/

section Reading

variable {mode : Mode} {done : Text} {position : Nat} {b0 b1 b2 b3 : UInt8} {rest : List UInt8}

theorem decodeFrom_one (h : b0.toNat < 0x80) :
    decodeFrom mode done position (b0 :: rest) =
      decodeFrom mode (CodePoint.ofOctet b0 :: done) (position + 1) rest := by
  have h1 : b0 < 0x80 := UInt8.lt_iff_toNat_lt.2 h
  rw [decodeFrom.eq_def]
  simp only [if_pos h1]

theorem decodeFrom_two (h : 0xC2 ≤ b0.toNat) (h' : b0.toNat < 0xE0)
    (hb1 : isContinuation b1 = true) :
    decodeFrom mode done position (b0 :: b1 :: rest) =
      decodeFrom mode (CodePoint.ofNat (b0.toNat % 32 * 64 + low6 b1) :: done) (position + 2)
        rest := by
  have h1 : ¬ b0 < 0x80 := not_lt_of_toNat_le (Nat.le_trans (by decide) h)
  have h2 : ¬ b0 < 0xC2 := not_lt_of_toNat_le (Nat.le_trans (by decide) h)
  have h3 : b0 < 0xE0 := UInt8.lt_iff_toNat_lt.2 h'
  rw [decodeFrom.eq_def]
  simp only [if_neg h1, if_neg h2, if_pos h3, if_pos hb1]

theorem decodeFrom_three (h : 0xE0 ≤ b0.toNat) (h' : b0.toNat < 0xF0)
    (hb1 : isSecond mode b0 b1 = true) (hb2 : isContinuation b2 = true) :
    decodeFrom mode done position (b0 :: b1 :: b2 :: rest) =
      decodeFrom mode
        (CodePoint.ofNat (b0.toNat % 16 * 4096 + low6 b1 * 64 + low6 b2) :: done) (position + 3)
        rest := by
  have h1 : ¬ b0 < 0x80 := not_lt_of_toNat_le (Nat.le_trans (by decide) h)
  have h2 : ¬ b0 < 0xC2 := not_lt_of_toNat_le (Nat.le_trans (by decide) h)
  have h3 : ¬ b0 < 0xE0 := not_lt_of_toNat_le (Nat.le_trans (by decide) h)
  have h4 : b0 < 0xF0 := UInt8.lt_iff_toNat_lt.2 h'
  rw [decodeFrom.eq_def]
  simp only [if_neg h1, if_neg h2, if_neg h3, if_pos h4, if_pos hb1, if_pos hb2]

theorem decodeFrom_four (h : 0xF0 ≤ b0.toNat) (h' : b0.toNat < 0xF5)
    (hb1 : isSecond mode b0 b1 = true) (hb2 : isContinuation b2 = true)
    (hb3 : isContinuation b3 = true) :
    decodeFrom mode done position (b0 :: b1 :: b2 :: b3 :: rest) =
      decodeFrom mode
        (CodePoint.ofNat
          (b0.toNat % 8 * 262144 + low6 b1 * 4096 + low6 b2 * 64 + low6 b3) :: done)
        (position + 4) rest := by
  have h1 : ¬ b0 < 0x80 := not_lt_of_toNat_le (Nat.le_trans (by decide) h)
  have h2 : ¬ b0 < 0xC2 := not_lt_of_toNat_le (Nat.le_trans (by decide) h)
  have h3 : ¬ b0 < 0xE0 := not_lt_of_toNat_le (Nat.le_trans (by decide) h)
  have h4 : ¬ b0 < 0xF0 := not_lt_of_toNat_le (Nat.le_trans (by decide) h)
  have h5 : b0 < 0xF5 := UInt8.lt_iff_toNat_lt.2 h'
  rw [decodeFrom.eq_def]
  simp only [if_neg h1, if_neg h2, if_neg h3, if_neg h4, if_pos h5, if_pos hb1, if_pos hb2,
    if_pos hb3]

end Reading

/-! ## One code point -/

theorem ofNat_eq_of_eq_val {c : CodePoint} {n : Nat} (h : n = c.val) : CodePoint.ofNat n = c := by
  subst h
  simp [CodePoint.ofNat, c.isLt]

theorem encodeOne_cases (c : CodePoint) :
    (c.val < 0x80 ∧ encodeOne c = [c.val.toUInt8]) ∨
    (0x80 ≤ c.val ∧ c.val < 0x800 ∧
      encodeOne c = [(0xC0 + c.val / 64).toUInt8, (0x80 + c.val % 64).toUInt8]) ∨
    (0x800 ≤ c.val ∧ c.val < 0x10000 ∧
      encodeOne c = [(0xE0 + c.val / 4096).toUInt8, (0x80 + c.val / 64 % 64).toUInt8,
        (0x80 + c.val % 64).toUInt8]) ∨
    (0x10000 ≤ c.val ∧
      encodeOne c = [(0xF0 + c.val / 262144).toUInt8, (0x80 + c.val / 4096 % 64).toUInt8,
        (0x80 + c.val / 64 % 64).toUInt8, (0x80 + c.val % 64).toUInt8]) := by
  by_cases h1 : c.val < 0x80
  · exact .inl ⟨h1, by simp [encodeOne, h1]⟩
  · by_cases h2 : c.val < 0x800
    · exact .inr (.inl ⟨by omega, h2, by simp [encodeOne, h1, h2]⟩)
    · by_cases h3 : c.val < 0x10000
      · exact .inr (.inr (.inl ⟨by omega, h3, by simp [encodeOne, h1, h2, h3]⟩))
      · exact .inr (.inr (.inr ⟨by omega, by simp [encodeOne, h1, h2, h3]⟩))

/-- The octets of a code point are read as that code point, whatever follows them. -/
theorem decodeFrom_encodeOne (done : Text) (position : Nat) (c : CodePoint) (rest : List UInt8) :
    decodeFrom .lenient done position (encodeOne c ++ rest) =
      decodeFrom .lenient (c :: done) (position + (encodeOne c).length) rest := by
  have hc := c.isLt
  rcases encodeOne_cases c with ⟨h, he⟩ | ⟨h, h', he⟩ | ⟨h, h', he⟩ | ⟨h, he⟩
  · have hb0 := toNat_toUInt8 (n := c.val) (by omega)
    have hval : CodePoint.ofOctet c.val.toUInt8 = c := Fin.ext hb0
    rw [he, List.cons_append, decodeFrom_one (by omega), hval]
    rfl
  · have hb0 := toNat_toUInt8 (n := 0xC0 + c.val / 64) (by omega)
    have hb1 := toNat_toUInt8 (n := 0x80 + c.val % 64) (by omega)
    rw [he, List.cons_append, List.cons_append,
      decodeFrom_two (by omega) (by omega) (isContinuation_iff.2 (by omega)),
      ofNat_eq_of_eq_val (c := c) (by rw [low6]; omega)]
    rfl
  · have hb0 := toNat_toUInt8 (n := 0xE0 + c.val / 4096) (by omega)
    have hb1 := toNat_toUInt8 (n := 0x80 + c.val / 64 % 64) (by omega)
    have hb2 := toNat_toUInt8 (n := 0x80 + c.val % 64) (by omega)
    rw [he, List.cons_append, List.cons_append, List.cons_append,
      decodeFrom_three (by omega) (by omega) (isSecond_lenient_iff.2 (by omega))
        (isContinuation_iff.2 (by omega)),
      ofNat_eq_of_eq_val (c := c) (by rw [low6, low6]; omega)]
    rfl
  · have hb0 := toNat_toUInt8 (n := 0xF0 + c.val / 262144) (by omega)
    have hb1 := toNat_toUInt8 (n := 0x80 + c.val / 4096 % 64) (by omega)
    have hb2 := toNat_toUInt8 (n := 0x80 + c.val / 64 % 64) (by omega)
    have hb3 := toNat_toUInt8 (n := 0x80 + c.val % 64) (by omega)
    rw [he, List.cons_append, List.cons_append, List.cons_append, List.cons_append,
      decodeFrom_four (by omega) (by omega) (isSecond_lenient_iff.2 (by omega))
        (isContinuation_iff.2 (by omega)) (isContinuation_iff.2 (by omega)),
      ofNat_eq_of_eq_val (c := c) (by rw [low6, low6, low6]; omega)]
    rfl

/-- The octet C0 starts no code point and continues none. -/
theorem ne_of_mem_encodeOne {c : CodePoint} {b : UInt8} (h : b ∈ encodeOne c) : b ≠ 0xC0 := by
  have hc := c.isLt
  rintro rfl
  rcases encodeOne_cases c with ⟨hr, he⟩ | ⟨hr, hr', he⟩ | ⟨hr, hr', he⟩ | ⟨hr, he⟩
  all_goals
    rw [he] at h
    simp only [List.mem_cons, List.not_mem_nil, or_false, ← UInt8.toNat_inj] at h
  · rw [toNat_toUInt8 (by omega)] at h
    exact absurd h (by show ¬ 192 = _; omega)
  · rw [toNat_toUInt8 (by omega), toNat_toUInt8 (by omega)] at h
    exact absurd h (by show ¬ (192 = _ ∨ 192 = _); omega)
  · rw [toNat_toUInt8 (by omega), toNat_toUInt8 (by omega), toNat_toUInt8 (by omega)] at h
    exact absurd h (by show ¬ (192 = _ ∨ 192 = _ ∨ 192 = _); omega)
  · rw [toNat_toUInt8 (by omega), toNat_toUInt8 (by omega), toNat_toUInt8 (by omega),
      toNat_toUInt8 (by omega)] at h
    exact absurd h (by show ¬ (192 = _ ∨ 192 = _ ∨ 192 = _ ∨ 192 = _); omega)

/-! ## What was read -/

/-- An octet is told by its number. -/
theorem toUInt8_eq_of_eq_toNat {n : Nat} {b : UInt8} (h : n = b.toNat) : n.toUInt8 = b := by
  subst h
  simp

theorem val_ofNat {n : Nat} (h : n < 0x110000) : (CodePoint.ofNat n).val = n := by
  simp [CodePoint.ofNat, h]

theorem encodeOne_ofOctet {b : UInt8} (h : b.toNat < 0x80) :
    encodeOne (CodePoint.ofOctet b) = [b] := by
  have hv : (CodePoint.ofOctet b).val = b.toNat := rfl
  rw [encodeOne]
  simp only [hv, if_pos h, toUInt8_eq_of_eq_toNat rfl]

section Shortest

variable {b0 b1 b2 b3 : UInt8}

theorem encodeOne_two (h : 0xC2 ≤ b0.toNat) (h' : b0.toNat < 0xE0)
    (hb1 : isContinuation b1 = true) :
    encodeOne (CodePoint.ofNat (b0.toNat % 32 * 64 + low6 b1)) = [b0, b1] := by
  rw [isContinuation_iff] at hb1
  rw [low6]
  have hv := val_ofNat (n := b0.toNat % 32 * 64 + b1.toNat % 64) (by omega)
  rcases encodeOne_cases (CodePoint.ofNat (b0.toNat % 32 * 64 + b1.toNat % 64)) with
    ⟨hr, he⟩ | ⟨hr, hr', he⟩ | ⟨hr, hr', he⟩ | ⟨hr, he⟩ <;> rw [hv] at *
  · omega
  · rw [he, toUInt8_eq_of_eq_toNat (b := b0) (by omega),
      toUInt8_eq_of_eq_toNat (b := b1) (by omega)]
  · omega
  · omega

theorem encodeOne_three (h : 0xE0 ≤ b0.toNat) (h' : b0.toNat < 0xF0)
    (hb1 : isSecond .lenient b0 b1 = true) (hb2 : isContinuation b2 = true) :
    encodeOne (CodePoint.ofNat (b0.toNat % 16 * 4096 + low6 b1 * 64 + low6 b2)) =
      [b0, b1, b2] := by
  rw [isSecond_lenient_iff] at hb1
  rw [isContinuation_iff] at hb2
  rw [low6, low6]
  have hv := val_ofNat (n := b0.toNat % 16 * 4096 + b1.toNat % 64 * 64 + b2.toNat % 64)
    (by omega)
  rcases encodeOne_cases
      (CodePoint.ofNat (b0.toNat % 16 * 4096 + b1.toNat % 64 * 64 + b2.toNat % 64)) with
    ⟨hr, he⟩ | ⟨hr, hr', he⟩ | ⟨hr, hr', he⟩ | ⟨hr, he⟩ <;> rw [hv] at *
  · omega
  · omega
  · rw [he, toUInt8_eq_of_eq_toNat (b := b0) (by omega),
      toUInt8_eq_of_eq_toNat (b := b1) (by omega), toUInt8_eq_of_eq_toNat (b := b2) (by omega)]
  · omega

theorem encodeOne_four (h : 0xF0 ≤ b0.toNat) (h' : b0.toNat < 0xF5)
    (hb1 : isSecond .lenient b0 b1 = true) (hb2 : isContinuation b2 = true)
    (hb3 : isContinuation b3 = true) :
    encodeOne (CodePoint.ofNat
      (b0.toNat % 8 * 262144 + low6 b1 * 4096 + low6 b2 * 64 + low6 b3)) = [b0, b1, b2, b3] := by
  rw [isSecond_lenient_iff] at hb1
  rw [isContinuation_iff] at hb2 hb3
  rw [low6, low6, low6]
  have hv := val_ofNat
    (n := b0.toNat % 8 * 262144 + b1.toNat % 64 * 4096 + b2.toNat % 64 * 64 + b3.toNat % 64)
    (by omega)
  rcases encodeOne_cases (CodePoint.ofNat
      (b0.toNat % 8 * 262144 + b1.toNat % 64 * 4096 + b2.toNat % 64 * 64 + b3.toNat % 64)) with
    ⟨hr, he⟩ | ⟨hr, hr', he⟩ | ⟨hr, hr', he⟩ | ⟨hr, he⟩ <;> rw [hv] at *
  · omega
  · omega
  · omega
  · rw [he, toUInt8_eq_of_eq_toNat (b := b0) (by omega),
      toUInt8_eq_of_eq_toNat (b := b1) (by omega), toUInt8_eq_of_eq_toNat (b := b2) (by omega),
      toUInt8_eq_of_eq_toNat (b := b3) (by omega)]

end Shortest

theorem toNat_lt_of_lt {b c : UInt8} (h : b < c) : b.toNat < c.toNat := UInt8.lt_iff_toNat_lt.1 h

theorem le_toNat_of_not_lt {b c : UInt8} (h : ¬ b < c) : c.toNat ≤ b.toNat :=
  UInt8.le_iff_toNat_le.1 (UInt8.not_lt.1 h)

end Utf8

/-! ## Texts -/

theorem decodeFrom_toUtf8 (done : Text) (position : Nat) (t : Text) :
    Utf8.decodeFrom .lenient done position t.toUtf8 = .ok (done.reverse ++ t) := by
  induction t generalizing done position with
  | nil => simp [toUtf8, Utf8.decodeFrom]
  | cons c t ih =>
    rw [toUtf8, List.flatMap_cons, Utf8.decodeFrom_encodeOne, ← toUtf8, ih]
    simp

/-- Reading what was written gives the text again. -/
theorem ofUtf8_toUtf8 (t : Text) : ofUtf8 .lenient t.toUtf8 = .ok t :=
  decodeFrom_toUtf8 [] 0 t

theorem exists_toUtf8_cons {c : CodePoint} {done u t : Text} {piece bs : List UInt8}
    (hc : Utf8.encodeOne c = piece) (ht : t = (c :: done).reverse ++ u) (hbs : bs = u.toUtf8) :
    ∃ v : Text, t = done.reverse ++ v ∧ piece ++ bs = v.toUtf8 := by
  subst hc ht hbs
  exact ⟨c :: u, by simp, by simp [toUtf8]⟩

/-- Octets that are read are those of the text that they are read as: of the forms that a code
point might have, only the shortest is read. -/
theorem exists_toUtf8_of_decodeFrom_eq_ok {done t : Text} {position : Nat} {bs : List UInt8}
    (h : Utf8.decodeFrom .lenient done position bs = .ok t) :
    ∃ u : Text, t = done.reverse ++ u ∧ bs = u.toUtf8 := by
  open Utf8 in
  fun_induction decodeFrom .lenient done position bs with
  | case1 done position =>
    cases h
    exact ⟨[], by simp, rfl⟩
  | case2 done position b0 r0 h0 ih =>
    obtain ⟨u, ht, hbs⟩ := ih h
    exact exists_toUtf8_cons (encodeOne_ofOctet (toNat_lt_of_lt h0)) ht hbs
  | case5 done position b0 h0 h1 h2 b1 r1 hb1 c ih =>
    obtain ⟨u, ht, hbs⟩ := ih h
    have hc : encodeOne c = [b0, b1] :=
      encodeOne_two (le_toNat_of_not_lt h1) (toNat_lt_of_lt h2) hb1
    exact exists_toUtf8_cons hc ht hbs
  | case10 done position b0 h0 h1 h2 h3 b1 hb1 b2 r2 hb2 c ih =>
    obtain ⟨u, ht, hbs⟩ := ih h
    have hc : encodeOne c = [b0, b1, b2] :=
      encodeOne_three (le_toNat_of_not_lt h2) (toNat_lt_of_lt h3) hb1 hb2
    exact exists_toUtf8_cons hc ht hbs
  | case17 done position b0 h0 h1 h2 h3 h4 b1 hb1 b2 hb2 b3 r3 hb3 c ih =>
    obtain ⟨u, ht, hbs⟩ := ih h
    have hc : encodeOne c = [b0, b1, b2, b3] :=
      encodeOne_four (le_toNat_of_not_lt h3) (toNat_lt_of_lt h4) hb1 hb2 hb3
    exact exists_toUtf8_cons hc ht hbs
  -- All other octets are faulted.
  | _ => cases h

/-- Exactly the octets of texts are read. -/
theorem ofUtf8_eq_ok_iff {bs : List UInt8} {t : Text} :
    ofUtf8 .lenient bs = .ok t ↔ bs = t.toUtf8 := by
  constructor
  · intro h
    obtain ⟨u, ht, hbs⟩ := exists_toUtf8_of_decodeFrom_eq_ok h
    rw [ht]
    exact hbs
  · rintro rfl
    exact ofUtf8_toUtf8 t

theorem ne_of_mem_toUtf8 {t : Text} {b : UInt8} (h : b ∈ t.toUtf8) : b ≠ 0xC0 := by
  obtain ⟨c, -, hb⟩ := List.mem_flatMap.1 h
  exact Utf8.ne_of_mem_encodeOne hb

end JndiScan.Text

namespace JndiScan

/-! ## ASCII -/

namespace CodePoint

/-- A code point of ASCII. -/
def IsAscii (c : CodePoint) : Prop := c.val < 0x80

instance : DecidablePred IsAscii := fun c => inferInstanceAs (Decidable (c.val < 0x80))

end CodePoint

namespace Text

/-- A text of ASCII. -/
def IsAscii (t : Text) : Prop := ∀ c ∈ t, c.IsAscii

instance : DecidablePred IsAscii := fun t => List.decidableBAll _ t

theorem isAscii_append_iff {t u : Text} : IsAscii (t ++ u) ↔ t.IsAscii ∧ u.IsAscii :=
  List.forall_mem_append

theorem isAscii_flatMap {α : Type} {f : α → Text} {xs : List α} (h : ∀ x ∈ xs, (f x).IsAscii) :
    IsAscii (xs.flatMap f) := by
  intro c hc
  obtain ⟨x, hx, hc⟩ := List.mem_flatMap.1 hc
  exact h x hx c hc

/-- In either form the octets of an ASCII text are read as the text. -/
theorem IsAscii.ofUtf8_toUtf8 {t : Text} (h : t.IsAscii) (mode : Utf8.Mode) :
    ofUtf8 mode t.toUtf8 = .ok t := by
  have hdecode : ∀ (done : Text) (position : Nat),
      Utf8.decodeFrom mode done position t.toUtf8 = .ok (done.reverse ++ t) := by
    induction t with
    | nil => simp [toUtf8, Utf8.decodeFrom]
    | cons c t ih =>
      obtain ⟨hc, ht⟩ := List.forall_mem_cons.1 h
      rw [CodePoint.IsAscii] at hc
      have hone : Utf8.encodeOne c = [c.val.toUInt8] := by
        rw [Utf8.encodeOne]
        exact if_pos hc
      have hoctet : c.val.toUInt8.toNat = c.val := Utf8.toNat_toUInt8 (by omega)
      have hvalue : CodePoint.ofOctet c.val.toUInt8 = c := Fin.ext hoctet
      intro done position
      rw [toUtf8, List.flatMap_cons, hone, List.singleton_append,
        Utf8.decodeFrom_one (by omega), hvalue, ← toUtf8, ih ht]
      simp
  exact hdecode [] 0

end Text

end JndiScan
