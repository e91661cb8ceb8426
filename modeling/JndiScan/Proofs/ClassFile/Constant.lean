/-
Text constants of class files are read as the text that was written, and what is read is written as
it was but for its zeros, which are written as pairs. Reading puts a zero for every pair before it
looks for code points, and writing a pair for every zero after it has written them: the octet C0 is
part of no code point, so neither step touches one. Two constants are read as one text exactly when
they differ in nothing but the ways in which their zeros are written.
-/
import JndiScan.ClassFile.Constant
import JndiScan.Proofs.Text.Utf8

namespace JndiScan.ClassFile

/-! ## Zeros and pairs -/

theorem plainZeros_pair (bs : Bytes) : plainZeros (0xC0 :: 0x80 :: bs) = 0 :: plainZeros bs := by
  rw [plainZeros, if_pos ⟨rfl, rfl⟩]

theorem plainZeros_cons {b : UInt8} {bs : Bytes} (h : b = 0xC0 → bs.head? ≠ some 0x80) :
    plainZeros (b :: bs) = b :: plainZeros bs := by
  cases bs with
  | nil => rfl
  | cons c rest => rw [plainZeros, if_neg fun hpair => h hpair.1 (congrArg some hpair.2)]

theorem plainZeros_eq_self {bs : Bytes} (h : ∀ b ∈ bs, b ≠ 0xC0) : plainZeros bs = bs := by
  induction bs with
  | nil => rfl
  | cons b bs ih =>
    have hb : b ≠ 0xC0 := h b List.mem_cons_self
    rw [plainZeros_cons fun heq => absurd heq hb, ih fun c hc => h c (List.mem_cons_of_mem b hc)]

theorem pairedZeros_zero (bs : Bytes) : pairedZeros (0 :: bs) = 0xC0 :: 0x80 :: pairedZeros bs :=
  rfl

theorem pairedZeros_pair (bs : Bytes) :
    pairedZeros (0xC0 :: 0x80 :: bs) = 0xC0 :: 0x80 :: pairedZeros bs := rfl

theorem pairedZeros_cons {b : UInt8} (h : b ≠ 0) (bs : Bytes) :
    pairedZeros (b :: bs) = b :: pairedZeros bs := by
  rw [pairedZeros, List.flatMap_cons, if_neg h]
  rfl

theorem pairedZeros_eq_self {bs : Bytes} (h : 0 ∉ bs) : pairedZeros bs = bs := by
  induction bs with
  | nil => rfl
  | cons b bs ih =>
    have hb : b ≠ 0 := fun heq => h (heq ▸ List.mem_cons_self)
    rw [pairedZeros_cons hb, ih fun hmem => h (List.mem_cons_of_mem b hmem)]

theorem pairedZeros_eq_nil_iff {bs : Bytes} : pairedZeros bs = [] ↔ bs = [] := by
  cases bs with
  | nil => exact iff_of_true rfl rfl
  | cons b bs =>
    refine iff_of_false (fun h => ?_) (List.cons_ne_nil b bs)
    have hempty := List.flatMap_eq_nil_iff.1 h b List.mem_cons_self
    split at hempty <;> cases hempty

/-- No octet 80 comes to stand first, as a zero gives a pair, which begins with C0. -/
theorem head?_pairedZeros_ne {bs : Bytes} (h : bs.head? ≠ some 0x80) :
    (pairedZeros bs).head? ≠ some 0x80 := by
  cases bs with
  | nil => exact h
  | cons b bs =>
    by_cases hb : b = 0
    · rw [hb, pairedZeros_zero, List.head?_cons]
      decide
    · rwa [pairedZeros_cons hb]

/-- Of any octets, with the pairs made zeros and the zeros made pairs all zeros are pairs. -/
theorem pairedZeros_plainZeros (bs : Bytes) : pairedZeros (plainZeros bs) = pairedZeros bs := by
  fun_induction plainZeros bs with
  | case1 => rfl
  | case2 => rfl
  | case3 b c rest hpair ih =>
    obtain ⟨rfl, rfl⟩ := hpair
    rw [pairedZeros_zero, ih, pairedZeros_pair]
  | case4 b c rest hpair ih =>
    by_cases hb : b = 0
    · rw [hb, pairedZeros_zero, pairedZeros_zero, ih]
    · rw [pairedZeros_cons hb, pairedZeros_cons hb, ih]

/-- The pairs that zeros give are made zeros again, and no others come about. -/
theorem plainZeros_pairedZeros (bs : Bytes) : plainZeros (pairedZeros bs) = plainZeros bs := by
  fun_induction plainZeros bs with
  | case1 => rfl
  | case2 b =>
    by_cases hb : b = 0
    · rw [hb]
      rfl
    · rw [pairedZeros_cons hb]
      rfl
  | case3 b c rest hpair ih =>
    obtain ⟨rfl, rfl⟩ := hpair
    rw [pairedZeros_pair, plainZeros_pair, ih]
  | case4 b c rest hpair ih =>
    by_cases hb : b = 0
    · rw [hb, pairedZeros_zero, plainZeros_pair, ih]
    · have hhead : b = 0xC0 → (pairedZeros (c :: rest)).head? ≠ some 0x80 := fun hC0 =>
        head?_pairedZeros_ne fun hc => hpair ⟨hC0, Option.some.inj hc⟩
      rw [pairedZeros_cons hb, plainZeros_cons hhead, ih]

/-! ## Octets that differ in their zeros -/

/-- The ways to write a zero. -/
def zeroForms : List Bytes := [[0], [0xC0, 0x80]]

/-- Octets that are the same but for the ways in which zeros are written. -/
inductive SameButZeros : Bytes → Bytes → Prop
  | nil : SameButZeros [] []
  | octet (b : UInt8) {xs ys : Bytes} : SameButZeros xs ys → SameButZeros (b :: xs) (b :: ys)
  | zero {z z' xs ys : Bytes} : z ∈ zeroForms → z' ∈ zeroForms → SameButZeros xs ys →
    SameButZeros (z ++ xs) (z' ++ ys)

/-- The octets begin with a zero, in one of its forms. -/
def StartsWithZero (bs : Bytes) : Prop := ∃ z ∈ zeroForms, ∃ rest, bs = z ++ rest

theorem mem_zeroForms {z : Bytes} : z ∈ zeroForms ↔ z = [0] ∨ z = [0xC0, 0x80] := by
  simp [zeroForms]

theorem length_pos_of_mem_zeroForms {z : Bytes} (h : z ∈ zeroForms) : 0 < z.length := by
  rcases mem_zeroForms.1 h with rfl | rfl <;> decide

theorem pairedZeros_zeroForm {z : Bytes} (h : z ∈ zeroForms) (bs : Bytes) :
    pairedZeros (z ++ bs) = 0xC0 :: 0x80 :: pairedZeros bs := by
  rcases mem_zeroForms.1 h with rfl | rfl <;> rfl

/-- A pair is given by nothing but a zero, in one of its forms. -/
theorem exists_of_pairedZeros_eq_pair {bs zs : Bytes}
    (h : pairedZeros bs = 0xC0 :: 0x80 :: zs) :
    ∃ z ∈ zeroForms, ∃ rest, bs = z ++ rest ∧ pairedZeros rest = zs := by
  cases bs with
  | nil => cases h
  | cons b bs =>
    by_cases hb : b = 0
    · rw [hb, pairedZeros_zero] at h
      exact ⟨[0], by decide, bs, by rw [hb]; rfl, (List.cons.inj (List.cons.inj h).2).2⟩
    · rw [pairedZeros_cons hb] at h
      obtain ⟨rfl, hrest⟩ := List.cons.inj h
      cases bs with
      | nil => cases hrest
      | cons c bs =>
        have hc : c ≠ 0 := by
          rintro rfl
          exact absurd (List.cons.inj hrest).1 (by decide)
        rw [pairedZeros_cons hc] at hrest
        obtain ⟨rfl, hbs⟩ := List.cons.inj hrest
        exact ⟨[0xC0, 0x80], by decide, bs, rfl, hbs⟩

theorem startsWithZero_iff {bs : Bytes} :
    StartsWithZero bs ↔ ∃ zs, pairedZeros bs = 0xC0 :: 0x80 :: zs := by
  constructor
  · rintro ⟨z, hz, rest, rfl⟩
    exact ⟨_, pairedZeros_zeroForm hz rest⟩
  · rintro ⟨zs, h⟩
    obtain ⟨z, hz, rest, hbs, -⟩ := exists_of_pairedZeros_eq_pair h
    exact ⟨z, hz, rest, hbs⟩

theorem pairedZeros_cons_of_not {b : UInt8} {bs : Bytes} (h : ¬ StartsWithZero (b :: bs)) :
    pairedZeros (b :: bs) = b :: pairedZeros bs :=
  pairedZeros_cons (fun hb => h ⟨[0], by decide, bs, by rw [hb]; rfl⟩) bs

theorem SameButZeros.pairedZeros_eq {xs ys : Bytes} (h : SameButZeros xs ys) :
    pairedZeros xs = pairedZeros ys := by
  induction h with
  | nil => rfl
  | octet b _ ih => exact congrArg ((if b = 0 then [0xC0, 0x80] else [b]) ++ ·) ih
  | zero hz hz' _ ih => rw [pairedZeros_zeroForm hz, pairedZeros_zeroForm hz', ih]

/-- Where one begins with a zero both do; else both begin with the same octet. -/
theorem sameButZeros_of_pairedZeros_eq {xs ys : Bytes} (h : pairedZeros xs = pairedZeros ys) :
    SameButZeros xs ys := by
  by_cases hzero : StartsWithZero xs
  · obtain ⟨z, hz, rest, rfl⟩ := hzero
    rw [pairedZeros_zeroForm hz] at h
    obtain ⟨z', hz', rest', rfl, hrest⟩ := exists_of_pairedZeros_eq_pair h.symm
    have hshorter : rest.length < (z ++ rest).length := by
      have := length_pos_of_mem_zeroForms hz
      rw [List.length_append]
      omega
    exact .zero hz hz' (sameButZeros_of_pairedZeros_eq hrest.symm)
  · have hzero' : ¬ StartsWithZero ys := by rwa [startsWithZero_iff, ← h, ← startsWithZero_iff]
    cases xs with
    | nil =>
      obtain rfl := pairedZeros_eq_nil_iff.1 h.symm
      exact .nil
    | cons b xs =>
      cases ys with
      | nil => exact absurd (pairedZeros_eq_nil_iff.1 h) (List.cons_ne_nil b xs)
      | cons c ys =>
        rw [pairedZeros_cons_of_not hzero, pairedZeros_cons_of_not hzero'] at h
        obtain ⟨rfl, hrest⟩ := List.cons.inj h
        exact .octet b (sameButZeros_of_pairedZeros_eq hrest)
  termination_by xs.length

theorem sameButZeros_iff {xs ys : Bytes} :
    SameButZeros xs ys ↔ pairedZeros xs = pairedZeros ys :=
  ⟨SameButZeros.pairedZeros_eq, sameButZeros_of_pairedZeros_eq⟩

instance : DecidableRel SameButZeros := fun _ _ => decidable_of_iff _ sameButZeros_iff.symm

/-! ## Constants -/

theorem constantText_constantOctets (t : Text) : constantText (constantOctets t) = .ok t := by
  rw [constantText, constantOctets, plainZeros_pairedZeros,
    plainZeros_eq_self fun _ => Text.ne_of_mem_toUtf8, Text.ofUtf8_toUtf8]

theorem constantText_pairedZeros (raw : Bytes) :
    constantText (pairedZeros raw) = constantText raw := by
  rw [constantText, constantText, plainZeros_pairedZeros]

/-- Octets are read as a text when they are what is written of it, once their zeros are pairs. -/
theorem constantText_eq_ok_iff_pairedZeros {raw : Bytes} {t : Text} :
    constantText raw = .ok t ↔ pairedZeros raw = constantOctets t := by
  constructor
  · intro h
    have hplain : plainZeros raw = t.toUtf8 := Text.ofUtf8_eq_ok_iff.1 h
    rw [constantOctets, ← hplain, pairedZeros_plainZeros]
  · intro h
    rw [← constantText_pairedZeros, h, constantText_constantOctets]

/-- Constants are kept. What was read is written as it was with its zeros as pairs, so that a
constant without zero octets comes back as it was, and other octets are read as the same text
exactly when they differ in nothing but the ways in which zeros are written. -/
theorem constantOctets_of_constantText {raw : Bytes} {t : Text} (h : constantText raw = .ok t) :
    constantOctets t = pairedZeros raw ∧ (0 ∉ raw → constantOctets t = raw) ∧
      ∀ raw', constantText raw' = .ok t ↔ SameButZeros raw raw' := by
  have hwritten : constantOctets t = pairedZeros raw :=
    (constantText_eq_ok_iff_pairedZeros.1 h).symm
  refine ⟨hwritten, fun hzero => ?_, fun raw' => ?_⟩
  · rw [hwritten, pairedZeros_eq_self hzero]
  · rw [constantText_eq_ok_iff_pairedZeros, hwritten, sameButZeros_iff, eq_comm]

/-- A text of the letter a, two zeros and a half of a surrogate pair is written with two pairs, and
read wherever one of them is a plain zero. -/
theorem constantOctets_of_constantText_pairs :
    let raw : Bytes := [0x61, 0xC0, 0x80, 0xC0, 0x80, 0xED, 0xA0, 0x80]
    let t : Text := [.ofChar 'a', .ofNat 0, .ofNat 0, .ofNat 0xD800]
    constantText raw = .ok t ∧ constantOctets t = pairedZeros raw ∧ 0 ∉ raw ∧
      constantOctets t = raw ∧ constantText [0x61, 0, 0xC0, 0x80, 0xED, 0xA0, 0x80] = .ok t := by
  intro raw t
  have hread : constantText raw = .ok t := by rfl
  have hzero : 0 ∉ raw := by decide
  obtain ⟨hwritten, hself, hsame⟩ := constantOctets_of_constantText hread
  have hforms : SameButZeros raw [0x61, 0, 0xC0, 0x80, 0xED, 0xA0, 0x80] := by decide
  exact ⟨hread, hwritten, hzero, hself hzero, (hsame _).2 hforms⟩

end JndiScan.ClassFile
