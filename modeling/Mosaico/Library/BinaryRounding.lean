import Mathlib.Data.Int.Log
import Mathlib.Data.Rat.Floor
import Mathlib.Tactic.Linarith

/-! Rounding to whole numbers and to binary numbers of 53 digits, both to the nearest and at a tie
to the even one. -/
namespace BinaryRounding

def roundEven (q : ℚ) : ℤ :=
  let down := ⌊q⌋
  if q - down < 1 / 2 then down
  else if 1 / 2 < q - down then down + 1
  else if down % 2 = 0 then down else down + 1

def unit (q : ℚ) : ℤ := max (Int.log 2 q - 52) (-1074)

def double (q : ℚ) : ℚ := roundEven (q / 2 ^ unit q) * 2 ^ unit q

section Bounds

variable {q : ℚ} {n : ℕ}

theorem roundEven_cases (q : ℚ) : roundEven q = ⌊q⌋ ∨ (roundEven q = ⌊q⌋ + 1 ∧ (⌊q⌋ : ℚ) < q) := by
  have behind (h : ¬ q - ⌊q⌋ < 1 / 2) : (⌊q⌋ : ℚ) < q := by linarith
  unfold roundEven
  dsimp only
  split_ifs with first second third
  · exact .inl rfl
  · exact .inr ⟨rfl, behind first⟩
  · exact .inl rfl
  · exact .inr ⟨rfl, behind first⟩

theorem roundEven_nonneg (h : 0 ≤ q) : 0 ≤ roundEven q := by
  have floor : 0 ≤ ⌊q⌋ := Int.floor_nonneg.mpr h
  obtain same | ⟨same, _⟩ := roundEven_cases q
  · omega
  · omega

theorem roundEven_le {z : ℤ} (h : q ≤ z) : roundEven q ≤ z := by
  have floor : ⌊q⌋ ≤ z := by
    have cast : (⌊q⌋ : ℚ) ≤ z := le_trans (Int.floor_le q) h
    exact_mod_cast cast
  obtain same | ⟨same, below⟩ := roundEven_cases q
  · omega
  · have strict : (⌊q⌋ : ℚ) < z := lt_of_lt_of_le below h
    have strict' : ⌊q⌋ < z := by exact_mod_cast strict
    omega

theorem unit_nonpos (h : q < 2 ^ 53) (pos : 0 < q) : unit q ≤ 0 := by
  have power : (2 : ℚ) ^ Int.log 2 q ≤ q := Int.zpow_log_le_self (by decide) pos
  have strict : (2 : ℚ) ^ Int.log 2 q < 2 ^ (53 : ℤ) := lt_of_le_of_lt power (by exact_mod_cast h)
  have exponent : Int.log 2 q < 53 := (zpow_lt_zpow_iff_right₀ (by norm_num)).mp strict
  unfold unit
  omega

theorem double_nonneg (h : 0 ≤ q) : 0 ≤ double q := by
  have weight : (0 : ℚ) < 2 ^ unit q := zpow_pos (by norm_num) _
  have whole : (0 : ℚ) ≤ roundEven (q / 2 ^ unit q) := by
    exact_mod_cast roundEven_nonneg (div_nonneg h weight.le)
  exact mul_nonneg whole weight.le

/-- Rounding does not pass a whole number. -/
theorem double_le (h : q ≤ n) (pos : 0 ≤ q) (small : n < 2 ^ 53) : double q ≤ n := by
  obtain rfl | pos := eq_or_lt_of_le pos
  · have zero : double 0 = 0 := by simp [double, roundEven]
    rw [zero]
    exact Nat.cast_nonneg n
  · have weight : (0 : ℚ) < 2 ^ unit q := zpow_pos (by norm_num) _
    have small' : q < 2 ^ 53 := lt_of_le_of_lt h (by exact_mod_cast small)
    obtain ⟨k, exponent⟩ := Int.eq_ofNat_of_zero_le (neg_nonneg.mpr (unit_nonpos small' pos))
    have inverse : (2 : ℚ) ^ unit q = (2 ^ k)⁻¹ := by
      rw [show unit q = -(k : ℤ) by omega, zpow_neg, zpow_natCast]
    have scaled : q / 2 ^ unit q ≤ ((n * 2 ^ k : ℕ) : ℤ) := by
      rw [inverse, div_inv_eq_mul]
      push_cast
      exact mul_le_mul_of_nonneg_right h (by positivity)
    have rounded : (roundEven (q / 2 ^ unit q) : ℚ) ≤ ((n * 2 ^ k : ℕ) : ℤ) := by
      exact_mod_cast roundEven_le scaled
    have bound := mul_le_mul_of_nonneg_right rounded weight.le
    have product : (((n * 2 ^ k : ℕ) : ℤ) : ℚ) * 2 ^ unit q = n := by
      rw [inverse]
      push_cast
      rw [mul_assoc, mul_inv_cancel₀ (by positivity), mul_one]
    rw [product] at bound
    exact bound

end Bounds

end BinaryRounding
