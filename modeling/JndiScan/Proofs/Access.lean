/-
Access flags as bits. Flags are integers of any size and sign, read in two's complement; what is
asked of them or written of them is said bit by bit here.
-/
import JndiScan.ClassDefinition
import Mathlib.Data.Int.Bitwise

namespace JndiScan.Access

/-- The low `w` bits of flags are the bits of the remainder by `2 ^ w`. -/
theorem testBit_emod_two_pow (flags : Int) (w i : Nat) :
    (flags % (2 ^ w : Nat)).toNat.testBit i = (decide (i < w) && flags.testBit i) := by
  cases flags with
  | ofNat n =>
    have h : (Int.ofNat n % ((2 ^ w : Nat) : Int)).toNat = n % 2 ^ w := by
      rw [Int.ofNat_eq_natCast, ← Int.natCast_mod, Int.toNat_natCast]
    rw [h, Nat.testBit_mod_two_pow]
    rfl
  | negSucc n =>
    have hlt : n % 2 ^ w < 2 ^ w := Nat.mod_lt _ (Nat.two_pow_pos w)
    have h : (Int.negSucc n % ((2 ^ w : Nat) : Int)).toNat = 2 ^ w - (n % 2 ^ w + 1) := by
      rw [Int.negSucc_emod _ (by exact_mod_cast Nat.two_pow_pos w)]
      omega
    rw [h, Nat.testBit_two_pow_sub_succ hlt, Nat.testBit_mod_two_pow]
    cases decide (i < w) <;> simp [Int.testBit]

/-- All bits of a mask are set in flags, said bit by bit. -/
theorem hasAll_eq_true_iff (flags : Int) (mask : Nat) :
    hasAll flags mask = true ↔ ∀ i, mask.testBit i = true → flags.testBit i = true := by
  have hbit : ∀ i, mask.testBit i = true → i < mask.log2 + 1 := by
    intro i hi
    by_contra hge
    have hlt : mask < 2 ^ i :=
      Nat.lt_of_lt_of_le Nat.lt_log2_self (Nat.pow_le_pow_right (by decide) (by omega))
    rw [Nat.testBit_lt_two_pow hlt] at hi
    cases hi
  rw [hasAll, Nat.pow_eq, beq_iff_eq]
  constructor
  · intro h i hi
    have h' := congrArg (Nat.testBit · i) h
    simp only [Nat.testBit_and, testBit_emod_two_pow, hi, Bool.and_true] at h'
    simpa [hbit i hi] using h'
  · intro h
    apply Nat.eq_of_testBit_eq
    intro i
    rw [Nat.testBit_and, testBit_emod_two_pow]
    cases hm : mask.testBit i with
    | false => simp
    | true => simp [hbit i hm, h i hm]

theorem low16_le (flags : Int) : low16 flags ≤ 0xFFFF := by
  rw [low16]
  omega

@[simp] theorem low16_low16 (flags : Int) : low16 (low16 flags : Int) = low16 flags := by
  rw [low16, low16]
  omega

end JndiScan.Access
