/-
Case as far as the ends of names show it. Small letters and folded case differ in most scripts, but
not where an ASCII text could tell: nothing but a capital of ASCII and the Kelvin sign has a small
letter of ASCII alone. So a text ends in an ASCII text when it is written in small letters exactly
when it does with its case folded.
-/
import JndiScan.Proofs.Text.Utf8
import JndiScan.Text.LowerCase

namespace JndiScan

namespace CodePoint

/-- The number of the Kelvin sign. -/
def kelvin : Nat := 0x212A

theorem foldCase_of_not_isAscii {c : CodePoint} (h : ¬ c.IsAscii) (hkelvin : c.val ≠ kelvin) :
    c.foldCase = c := by
  have hcapital : ¬ c.val ≤ 0x5A := fun hle => h (Nat.lt_of_le_of_lt hle (by decide))
  have hkelvin : ¬ c.val = 0x212A := hkelvin
  simp [foldCase, hcapital, hkelvin]

end CodePoint

namespace Text

open CodePoint (kelvin foldCase_of_not_isAscii)

/-! ## Small letters -/

/-- A series of capitals beyond ASCII, without the Kelvin sign, whose small letters are beyond ASCII
too. -/
def BeyondAscii : Nat × Nat × Nat × Int → Prop
  | (first, last, _, distance) =>
    0x80 ≤ first ∧ (last < kelvin ∨ kelvin < first) ∧ 0x80 ≤ first + distance ∧
      last + distance < 0x110000

instance : DecidablePred BeyondAscii := fun (_, _, _, _) => inferInstanceAs (Decidable (_ ∧ _))

theorem capitalSeries_cases : ∀ series ∈ capitalSeries,
    series = (0x41, 0x5A, 1, 32) ∨ series = (kelvin, kelvin, 1, -8383) ∨ BeyondAscii series := by
  decide +kernel

/-- A code point that no series of capitals holds is its own small letter, and its case is folded
already. -/
theorem foldCase_of_smallest {c : CodePoint} (h : ∀ series ∈ capitalSeries,
    (series.1 ≤ c.val && c.val ≤ series.2.1 && (c.val - series.1) % series.2.2.1 == 0) = false) :
    c.foldCase = c := by
  have hcapital := h (0x41, 0x5A, 1, 32) (by decide)
  have hkelvin := h (0x212A, 0x212A, 1, -8383) (by decide)
  simp only [Nat.mod_one, beq_self_eq_true, Bool.and_true] at hcapital hkelvin
  have hne : ¬ c.val = 0x212A := by
    intro heq
    simp [heq] at hkelvin
  rw [CodePoint.foldCase, if_neg (by rw [hcapital]; exact Bool.false_ne_true), if_neg hne]

/-- A small letter is what case is folded to, or neither of the two is ASCII. -/
theorem smallLetter_cases (c : CodePoint) :
    smallLetter c = c.foldCase ∨ ¬ (smallLetter c).IsAscii ∧ ¬ c.foldCase.IsAscii := by
  unfold smallLetter
  dsimp only
  split
  · next first last step distance hfound =>
    have hmem := List.mem_of_find?_eq_some hfound
    have hholds := List.find?_some hfound
    simp only [Bool.and_eq_true, decide_eq_true_eq] at hholds
    obtain ⟨⟨hfirst, hlast⟩, -⟩ := hholds
    rcases capitalSeries_cases _ hmem with heq | heq | ⟨hbeyond, hapart, hleast, hmost⟩
    · obtain ⟨rfl, rfl, rfl, rfl⟩ : first = 0x41 ∧ last = 0x5A ∧ step = 1 ∧ distance = 32 := by
        simpa using heq
      left
      rw [CodePoint.foldCase, if_pos (by simp [hfirst, hlast])]
      rfl
    · obtain ⟨rfl, rfl, rfl, rfl⟩ :
          first = kelvin ∧ last = kelvin ∧ step = 1 ∧ distance = -8383 := by simpa using heq
      obtain rfl : c = ⟨kelvin, by decide⟩ := Fin.ext (Nat.le_antisymm hlast hfirst)
      left
      rfl
    · have hc : ¬ c.IsAscii := Nat.not_lt.2 (Nat.le_trans hbeyond hfirst)
      have hsmall : (CodePoint.ofNat ((c.val : Int) + distance).toNat).val =
          ((c.val : Int) + distance).toNat := Utf8.val_ofNat (by omega)
      refine .inr ⟨fun hascii => ?_, ?_⟩
      · rw [CodePoint.IsAscii, hsmall] at hascii
        omega
      · rwa [foldCase_of_not_isAscii hc (by omega)]
  · next hnone =>
    refine .inl (foldCase_of_smallest fun series hseries => ?_).symm
    simpa using List.find?_eq_none.1 hnone series hseries

/-- An ASCII code point is a small letter exactly when case is folded to it. -/
theorem smallLetter_eq_iff {c d : CodePoint} (hd : d.IsAscii) :
    smallLetter c = d ↔ c.foldCase = d := by
  rcases smallLetter_cases c with heq | ⟨hsmall, hfold⟩
  · rw [heq]
  · exact iff_of_false (fun h => hsmall (h ▸ hd)) fun h => hfold (h ▸ hd)

/-! ## Texts -/

/-- The pieces that code points become in small letters: most of them one code point each; a
dotted capital I two, and a sigma one that depends on the text around it. -/
theorem lowerFrom_cons_cases (before : Text) (c : CodePoint) (rest : Text) :
    (∃ first last : CodePoint, ¬ last.IsAscii ∧
      lowerFrom before (c :: rest) = first :: last :: lowerFrom (c :: before) rest ∧
      ¬ c.foldCase.IsAscii) ∨
    ∃ small : CodePoint, lowerFrom before (c :: rest) = small :: lowerFrom (c :: before) rest ∧
      ∀ d : CodePoint, d.IsAscii → (small = d ↔ c.foldCase = d) := by
  have hcons : lowerFrom before (c :: rest) =
      (if c.val = 0x130 then [0x69, 0x307]
        else if c.val = 0x3A3 && meetsLetter before && !meetsLetter rest then [0x3C2]
        else [smallLetter c] : Text) ++ lowerFrom (c :: before) rest := rfl
  rw [hcons]
  split
  · next hdotted =>
    obtain rfl : c = ⟨0x130, by decide⟩ := Fin.ext hdotted
    exact .inl ⟨0x69, 0x307, by decide, rfl, by decide⟩
  · split
    · next hsigma =>
      simp only [Bool.and_eq_true, decide_eq_true_eq] at hsigma
      obtain rfl : c = ⟨0x3A3, by decide⟩ := Fin.ext hsigma.1.1
      refine .inr ⟨0x3C2, rfl, fun d hd => iff_of_false ?_ ?_⟩
      · exact fun h => absurd (h ▸ hd) (by decide)
      · exact fun h => absurd (h ▸ hd) (by decide)
    · exact .inr ⟨smallLetter c, rfl, fun d => smallLetter_eq_iff⟩

/-- A text is an ASCII text in small letters exactly when it is that text with its case folded. -/
theorem lowerFrom_eq_iff {s : Text} (hs : s.IsAscii) (before t : Text) :
    lowerFrom before t = s ↔ t.foldCase = s := by
  induction t generalizing before s with
  | nil => rfl
  | cons c t ih =>
    show _ ↔ c.foldCase :: foldCase t = s
    rcases lowerFrom_cons_cases before c t with
      ⟨first, last, hlast, heq, hfold⟩ | ⟨small, heq, hiff⟩
    · rw [heq]
      refine iff_of_false ?_ ?_
      · rintro rfl
        exact hlast (hs last (by simp))
      · rintro rfl
        exact hfold (hs _ (List.mem_cons_self ..))
    · rw [heq]
      cases s with
      | nil => exact iff_of_false (List.cons_ne_nil _ _) (List.cons_ne_nil _ _)
      | cons d s =>
        rw [List.cons.injEq, List.cons.injEq, hiff d (hs d (List.mem_cons_self ..)),
          ih (fun c hc => hs c (List.mem_cons_of_mem _ hc))]

/-- What precedes a text and what follows it has no part in the ASCII texts that it ends in. -/
theorem suffix_lowerFrom_iff {s : Text} (hs : s.IsAscii) (before t : Text) :
    s <:+ lowerFrom before t ↔ s <:+ t.foldCase := by
  induction t generalizing before with
  | nil => rfl
  | cons c t ih =>
    have hwhole := lowerFrom_eq_iff hs before (c :: t)
    rw [show foldCase (c :: t) = c.foldCase :: foldCase t from rfl] at hwhole ⊢
    rw [List.suffix_cons_iff, eq_comm, ← hwhole, ← ih (c :: before)]
    rcases lowerFrom_cons_cases before c t with ⟨first, last, hlast, heq, -⟩ | ⟨small, heq, -⟩
    · have hne : s ≠ last :: lowerFrom (c :: before) t := by
        rintro rfl
        exact hlast (hs last (List.mem_cons_self ..))
      rw [heq, List.suffix_cons_iff, List.suffix_cons_iff, or_iff_right hne, eq_comm]
    · rw [heq, List.suffix_cons_iff, eq_comm]

/-- In small letters a text ends in an ASCII text exactly when it does with its case folded. -/
theorem suffix_lower_iff {s : Text} (hs : s.IsAscii) (t : Text) :
    s <:+ t.lower ↔ s <:+ t.foldCase :=
  suffix_lowerFrom_iff hs [] t

end Text

end JndiScan
