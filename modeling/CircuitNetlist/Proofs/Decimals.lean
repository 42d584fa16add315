import CircuitNetlist.Decimal.Basic
import Mathlib.Algebra.Order.Field.Power
import Mathlib.Data.Rat.Cast.Order
import Mathlib.Tactic.Linarith
import Mathlib.Tactic.Positivity
import Mathlib.Tactic.Ring

/-!
# Decimals in normal form

A decimal in normal form has no trailing zero. Normalizing twice is normalizing once, and zeros
added to the digits make no difference. The exponent of the leading digit bounds the value from both
sides.
-/
namespace CircuitNetlist

/-! ### Counting digits -/

theorem digitCount_pos (n : Nat) : 0 < digitCount n :=
  Nat.length_toDigits_pos

theorem lt_pow_digitCount (n : Nat) : n < 10 ^ digitCount n :=
  (Nat.length_toDigits_le_iff (by decide) (digitCount_pos n)).mp le_rfl

theorem pow_digitCount_le {n : Nat} (nonzero : n ≠ 0) : 10 ^ (digitCount n - 1) ≤ n := by
  by_contra fewer
  rcases Nat.eq_zero_or_pos (digitCount n - 1) with single | several
  · rw [single, pow_zero] at fewer
    omega
  · have := (Nat.length_toDigits_le_iff (by decide) several).mpr (not_le.mp fewer)
    unfold digitCount at *
    omega

theorem digitCount_mul_ten {n : Nat} (nonzero : n ≠ 0) :
    digitCount (n * 10) = digitCount n + 1 := by
  unfold digitCount
  rw [Nat.toDigits_of_base_le (by decide) (by omega), List.length_append,
    Nat.mul_div_cancel n (by decide), List.length_singleton]

namespace Decimal

/-! ### Normal forms -/

theorem normalize_of_no_trailing_zero {d : Decimal} (last : d.digits % 10 ≠ 0) :
    d.normalize = d := by
  have nonzero : d.digits ≠ 0 := by
    rintro zero
    simp [zero] at last
  obtain ⟨fuel, count⟩ := Nat.exists_eq_succ_of_ne_zero (digitCount_pos d.digits).ne'
  unfold normalize
  rw [if_neg nonzero, count, strip, if_neg last]

/-- With enough fuel no trailing zero is left. -/
theorem strip_no_trailing_zero {fuel n : Nat} {e : Int} (nonzero : n ≠ 0) (enough : n < 10 ^ fuel) :
    (strip fuel n e).digits % 10 ≠ 0 := by
  induction fuel generalizing n e with
  | zero => simp [nonzero] at enough
  | succ fuel ih =>
    unfold strip
    split
    case isTrue trailing => exact ih (by omega) (by rw [pow_succ] at enough; omega)
    case isFalse last => exact last

theorem normalize_normalize (d : Decimal) : d.normalize.normalize = d.normalize := by
  by_cases zero : d.digits = 0
  · simp [normalize, zero]
  · apply normalize_of_no_trailing_zero
    rw [normalize, if_neg zero]
    exact strip_no_trailing_zero zero (lt_pow_digitCount _)

/-- Zeros that are added to the digits are taken off again. -/
theorem normalize_mul_pow {n : Nat} (nonzero : n ≠ 0) (k : Nat) (e : Int) :
    (mk (n * 10 ^ k) e).normalize = (mk n (e + k)).normalize := by
  induction k generalizing e with
  | zero => simp
  | succ k ih =>
    have more : n * 10 ^ k ≠ 0 := by positivity
    have once : (mk (n * 10 ^ k * 10) e).normalize = (mk (n * 10 ^ k) (e + 1)).normalize := by
      unfold normalize
      rw [if_neg (by simpa using nonzero), if_neg more, digitCount_mul_ten more, strip,
        if_pos (Nat.mul_mod_left _ _), Nat.mul_div_cancel _ (by decide)]
    rw [pow_succ, ← mul_assoc, once, ih]
    push_cast
    rw [add_assoc, add_comm 1]

theorem digits_strip_le (fuel n : Nat) (e : Int) : (strip fuel n e).digits ≤ n := by
  induction fuel generalizing n e with
  | zero => exact le_rfl
  | succ fuel ih =>
      unfold strip
      split
      · exact (ih (n / 10) (e + 1)).trans (Nat.div_le_self n 10)
      · exact le_rfl

theorem digits_normalize_le (d : Decimal) : d.normalize.digits ≤ d.digits := by
  unfold normalize
  split
  · exact Nat.zero_le _
  · exact digits_strip_le _ _ _

/-- In normal form a power of ten has one digit. -/
theorem digits_normalize_lt {d : Decimal} {k : Nat} (several : 0 < k)
    (digits : d.digits ≤ 10 ^ k) : d.normalize.digits < 10 ^ k := by
  rcases lt_or_eq_of_le digits with fewer | power
  · exact d.digits_normalize_le.trans_lt fewer
  · have single : d.normalize = ⟨1, d.exponent + k⟩ := by
      obtain ⟨n, e⟩ := d
      obtain rfl : n = 1 * 10 ^ k := by simpa using power
      rw [normalize_mul_pow one_ne_zero]
      exact normalize_of_no_trailing_zero (by simp)
    rw [single]
    exact Nat.one_lt_pow several.ne' (by decide)

/-! ### The leading digit -/

theorem pow_leadingExponent_le {d : Decimal} (nonzero : d.digits ≠ 0) :
    (10 : Rat) ^ d.leadingExponent ≤ d.value := by
  have digits : ((10 : Rat) ^ (digitCount d.digits - 1 : Nat)) ≤ d.digits := by
    exact_mod_cast pow_digitCount_le nonzero
  have count := digitCount_pos d.digits
  have split : d.leadingExponent = ((digitCount d.digits - 1 : Nat) : Int) + d.exponent := by
    unfold leadingExponent
    omega
  rw [split, zpow_add₀ (by norm_num), zpow_natCast]
  exact mul_le_mul_of_nonneg_right digits (by positivity)

theorem value_lt_pow_leadingExponent (d : Decimal) :
    d.value < (10 : Rat) ^ (d.leadingExponent + 1) := by
  have digits : (d.digits : Rat) < (10 : Rat) ^ digitCount d.digits := by
    exact_mod_cast lt_pow_digitCount d.digits
  have split : d.leadingExponent + 1 = (digitCount d.digits : Int) + d.exponent := by
    unfold leadingExponent
    omega
  rw [split, zpow_add₀ (by norm_num), zpow_natCast]
  exact mul_lt_mul_of_pos_right digits (by positivity)

end Decimal

end CircuitNetlist
