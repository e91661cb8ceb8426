/-
Numbers are read back as they were written. The digits of a number are read as that number, up to
the first code point that is no digit, and they start with a zero only where the number is zero, so
the reader never refuses them. What follows a value that was written is nothing, a comma or a line
end: none of them goes on with a number.
-/
import JndiScan.Json.Reader
import JndiScan.Json.Writer
import Mathlib.Data.List.Basic

namespace JndiScan

namespace Text

/-! ## Digits -/

section

variable {n : Nat} {c : CodePoint}

theorem isDigit_of_mem_ofNat (h : c ∈ ofNat n) : c.isDigit = true := by
  obtain ⟨d, hd, rfl⟩ := List.mem_map.1 h
  have hdigit : d.isDigit = true := Nat.isDigit_of_mem_toDigits (by decide) (by decide) hd
  have hrange : 0x30 ≤ d.toNat ∧ d.toNat ≤ 0x39 := by
    simpa [Char.isDigit, UInt32.le_iff_toNat_le] using hdigit
  exact Bool.and_eq_true_iff.2 ⟨decide_eq_true hrange.1, decide_eq_true hrange.2⟩

theorem ofNat_ne_nil : ofNat n ≠ [] := by
  simp [ofNat, Nat.toDigits_ne_nil]

/-- The digits of a number other than zero do not start with a zero. -/
theorem eq_zero_of_head_ofNat (h : (ofNat n).head? = some (.ofChar '0')) : n = 0 := by
  induction n using Nat.strongRecOn with
  | ind n ih =>
    rw [ofNat, Nat.toDigits_eq_if (by decide)] at h
    split at h
    case isTrue hn =>
      have hdigits : ∀ d < 10, CodePoint.ofChar d.digitChar = .ofChar '0' → d = 0 := by decide
      exact hdigits n hn (by simpa using h)
    case isFalse hn =>
      have hfirst : (ofNat (n / 10)).head? = some (.ofChar '0') := by
        rw [List.map_append, ← ofNat, List.head?_append_of_ne_nil _ ofNat_ne_nil] at h
        exact h
      have hzero : n / 10 = 0 := ih (n / 10) (by omega) hfirst
      omega

end

/-- An integer is written as its sign and the digits of its magnitude. -/
theorem ofInt_eq (i : Int) :
    ofInt i = (if decide (i < 0) then ("-" : Text) else []) ++ ofNat i.natAbs := by
  cases i with
  | ofNat n =>
    have hn : ¬ Int.ofNat n < 0 := Int.not_lt.2 (Int.natCast_nonneg n)
    rw [decide_eq_false hn]
    rfl
  | negSucc n =>
    rw [decide_eq_true (Int.negSucc_lt_zero n)]
    rfl

end Text

namespace Json

open Text (isDigit_of_mem_ofNat ofNat_ne_nil eq_zero_of_head_ofNat)

theorem digitsValue_ofNat (n : Nat) : digitsValue (Text.ofNat n) = n := by
  have hvalue : Nat.ofDigitChars 10 (Nat.toDigits 10 n) 0 = n :=
    Nat.ofDigitChars_toDigits (by decide) (by decide)
  rw [digitsValue, Text.ofNat, List.foldl_map]
  exact hvalue

/-! ## Numbers -/

/-- What may stand behind a value that was written: nothing, a comma or a line end. -/
def Ends (rest : Text) : Prop := ∀ c ∈ rest.head?, c = .ofChar ',' ∨ c = .ofChar '\n'

theorem ends_nil : Ends [] := by
  simp [Ends]

theorem ends_comma (rest : Text) : Ends (.ofChar ',' :: rest) := by
  simp [Ends]

theorem ends_lineEnd (rest : Text) : Ends (.ofChar '\n' :: rest) := by
  simp [Ends]

section

variable {n : Nat} {rest : Text} {negative : Bool}

/-- Digits are taken up to the first code point that is no digit. -/
theorem digits_of_ofNat (h : ∀ c ∈ rest.head?, c.isDigit = false) :
    (Text.ofNat n ++ rest).takeWhile (·.isDigit) = Text.ofNat n ∧
      (Text.ofNat n ++ rest).dropWhile (·.isDigit) = rest := by
  have hrest : rest.takeWhile (·.isDigit) = [] ∧ rest.dropWhile (·.isDigit) = rest := by
    cases rest with
    | nil => exact ⟨rfl, rfl⟩
    | cons c rest =>
      have hc : c.isDigit = false := h c rfl
      simp [hc]
  rw [List.takeWhile_append_of_pos fun c hc => isDigit_of_mem_ofNat hc,
    List.dropWhile_append_of_pos fun c hc => isDigit_of_mem_ofNat hc, hrest.1, hrest.2]
  exact ⟨List.append_nil _, rfl⟩

/-- No digit and no point goes on with a number at the end of a value. -/
theorem Ends.head (h : Ends rest) : ∀ c ∈ rest.head?, c.isDigit = false ∧ c ≠ .ofChar '.' := by
  intro c hc
  rcases h c hc with rfl | rfl <;> decide

theorem Ends.readExponent (h : Ends rest) : readExponent rest = some (none, rest) := by
  cases rest with
  | nil => rfl
  | cons c rest =>
    have hc : ¬ (c = .ofChar 'e' || c = .ofChar 'E') = true := by
      rcases h c rfl with rfl | rfl <;> decide
    simp only [Json.readExponent, if_neg hc]

/-- The number that digits and an exponent write. -/
def scaled (negative : Bool) (n : Nat) : Option Int → Json
  | none => .int (if negative then -n else n)
  | some e => .decimal negative n e

theorem scaled_natAbs (i : Int) : scaled (decide (i < 0)) i.natAbs none = int i := by
  have hvalue : (if decide (i < 0) then -(i.natAbs : Int) else i.natAbs) = i := by
    simp only [decide_eq_true_eq]
    split <;> omega
  rw [scaled, hvalue]

/-- The digits of a number are read with the exponent behind them, where no point stands there. -/
theorem readMagnitude_ofNat {exponent? : Option Int} {after : Text}
    (h : ∀ c ∈ rest.head?, c.isDigit = false ∧ c ≠ .ofChar '.')
    (hexponent : readExponent rest = some (exponent?, after)) :
    readMagnitude negative (Text.ofNat n ++ rest) = some (scaled negative n exponent?, after) := by
  obtain ⟨htake, hdrop⟩ := digits_of_ofNat (n := n) fun c hc => (h c hc).1
  have haccepted : ¬ ((Text.ofNat n).isEmpty ||
      ((Text.ofNat n).length > 1 && (Text.ofNat n).head? = some (.ofChar '0'))) = true := by
    intro hrefused
    simp only [Bool.or_eq_true, Bool.and_eq_true, List.isEmpty_iff, ofNat_ne_nil, false_or,
      decide_eq_true_eq] at hrefused
    obtain ⟨hlong, hzero⟩ := hrefused
    rw [eq_zero_of_head_ofNat hzero] at hlong
    exact absurd hlong (by decide)
  have hpoint : ∀ c rest', rest = c :: rest' → ¬ c = .ofChar '.' := by
    rintro c rest' rfl
    exact (h c rfl).2
  rw [readMagnitude]
  simp only [htake, hdrop, if_neg haccepted]
  cases rest with
  | nil => cases exponent? <;> simp [hexponent, digitsValue_ofNat, scaled]
  | cons c rest =>
    cases exponent? <;> simp [hexponent, digitsValue_ofNat, hpoint c rest rfl, scaled]

/-- Digits start with a digit, and no sign is one. -/
theorem exists_cons_ofNat (n : Nat) (rest : Text) :
    ∃ d u, Text.ofNat n ++ rest = d :: u ∧ CodePoint.isDigit d = true ∧
      d ≠ .ofChar '-' ∧ d ≠ .ofChar '+' := by
  obtain ⟨d, ds, hn⟩ := List.exists_cons_of_ne_nil (ofNat_ne_nil (n := n))
  have hd : CodePoint.isDigit d = true := isDigit_of_mem_ofNat (n := n) (by simp [hn])
  refine ⟨d, ds ++ rest, by rw [hn]; rfl, hd, ?_, ?_⟩ <;> (rintro rfl; revert hd; decide)

/-- An exponent that was written is read. -/
theorem readExponent_ofInt (h : Ends rest) (e : Int) :
    readExponent (.ofChar 'e' :: (Text.ofInt e ++ rest)) = some (some e, rest) := by
  cases e with
  | ofNat m =>
    obtain ⟨htake, hdrop⟩ := digits_of_ofNat (n := m) fun c hc => (h.head c hc).1
    obtain ⟨d, u, hu, -, hminus, hplus⟩ := exists_cons_ofNat m rest
    rw [hu] at htake hdrop
    simp only [readExponent, Text.ofInt, hu, if_neg hminus, if_neg hplus, htake, hdrop,
      digitsValue_ofNat]
    simp [ofNat_ne_nil]
  | negSucc m =>
    obtain ⟨htake, hdrop⟩ := digits_of_ofNat (n := m + 1) fun c hc => (h.head c hc).1
    simp [readExponent, Text.ofInt, htake, hdrop, digitsValue_ofNat, ofNat_ne_nil, Int.negSucc_eq]

end

end Json

end JndiScan
