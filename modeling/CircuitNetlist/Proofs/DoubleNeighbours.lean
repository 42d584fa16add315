import CircuitNetlist.Proofs.WrittenNumbers
import Mathlib.Tactic.LinearCombination

/-!
# The double nearest to a number

No double lies between a double and its two neighbours, one unit of the last place above and as much
below, or half as much below a power of two. So the numbers that a double is nearest to, those of a
tie included, are exactly the ones of the interval around it: nearness to all doubles is decided by
the distance to this one.
-/
namespace CircuitNetlist

namespace Double

/-- The double that a number is rounded to: no other is nearer, and of two that are equally near it
is the one with the even significand. Here an infinity stands for the power of two that is next to
the greatest doubles. -/
structure IsNearest (x : Double) (r : Rat) : Prop where
  finite : x.isFinite
  nearest : ∀ y : Double, y.isNaN = false → |r - x.value| ≤ |r - y.value|
  even_of_tie : ∀ y : Double, y.isNaN = false → |r - x.value| = |r - y.value| →
    y.value = x.value ∨ x.significand % 2 = 0

/-! ### Neighbours -/

section Neighbours
variable {x y : Double}

/-- The weight of the last place. -/
def unit (x : Double) : Rat :=
  (2 : Rat) ^ x.exponent

theorem unit_pos (x : Double) : 0 < x.unit := by
  unfold unit
  positivity

theorem magnitude_eq_units (x : Double) : x.magnitude = x.significand * x.unit := rfl

/-- What is coarser than a double lies on its grid. -/
theorem exists_units_of_exponent_le (coarse : x.exponent ≤ y.exponent) :
    ∃ units : Nat, y.magnitude = units * x.unit := by
  obtain ⟨k, more⟩ : ∃ k : Nat, y.exponent = k + x.exponent :=
    ⟨(y.exponent - x.exponent).toNat, by omega⟩
  refine ⟨y.significand * 2 ^ k, ?_⟩
  unfold magnitude unit
  rw [more, zpow_add₀ two_ne_zero, zpow_natCast]
  push_cast
  ring

/-- What is finer than a double lies below the powers of two that its grid starts with. -/
theorem magnitude_le_of_exponent_lt (fine : y.exponent < x.exponent) :
    y.magnitude ≤ (2 ^ 52 - 1 / 2) * x.unit := by
  have leading := y.significand_succ_le
  have half : (2 : Rat) ^ (x.exponent - 1) = x.unit / 2 := by
    rw [zpow_sub_one₀ two_ne_zero, ← div_eq_mul_inv]
    rfl
  calc y.magnitude ≤ (2 ^ 53 - 1) * (2 : Rat) ^ (x.exponent - 1) :=
        mul_le_mul (by linarith) (zpow_le_zpow_right₀ one_le_two (by omega)) (by positivity)
          (by norm_num)
    _ = (2 ^ 52 - 1 / 2) * x.unit := by
        rw [half]
        ring

theorem reachBelow_eq_of_lt (above : fractionRange < x.significand) : x.reachBelow = 1 / 2 :=
  if_neg fun narrow => above.ne' (isNarrowBelow_iff.mp narrow).1

/-- Nothing lies between a double and its neighbours. -/
theorem magnitude_apart (x y : Double) :
    y.magnitude = x.magnitude ∨ x.magnitude + x.unit ≤ y.magnitude ∨
      y.magnitude + 2 * x.reachBelow * x.unit ≤ x.magnitude := by
  have pos := x.unit_pos
  have reach := x.reachBelow_le
  rw [x.magnitude_eq_units]
  rcases le_or_gt x.exponent y.exponent with coarse | fine
  · obtain ⟨units, counted⟩ := exists_units_of_exponent_le coarse
    rw [counted]
    rcases lt_trichotomy units x.significand with fewer | same | more
    · have apart : (units : Rat) + 1 ≤ x.significand := by exact_mod_cast fewer
      right
      right
      nlinarith
    · exact .inl (by rw [same])
    · have apart : (x.significand : Rat) + 1 ≤ units := by exact_mod_cast more
      right
      left
      nlinarith
  · have normal : -1074 < x.exponent := lt_of_le_of_lt y.neg_le_exponent fine
    have below := magnitude_le_of_exponent_lt fine
    have size : ((fractionRange : Nat) : Rat) = 2 ^ 52 := by norm_num [fractionRange]
    right
    right
    rcases eq_or_lt_of_le (fractionRange_le_significand normal) with least | more
    · -- at a power of two the units below are half as wide
      have narrow : x.reachBelow = 1 / 4 := if_pos (isNarrowBelow_iff.mpr ⟨least.symm, normal⟩)
      rw [narrow, ← least, size]
      linarith
    · have apart : ((fractionRange : Nat) : Rat) + 1 ≤ x.significand := by exact_mod_cast more
      rw [reachBelow_eq_of_lt more]
      rw [size] at apart
      nlinarith

/-- The bits behind the sign. -/
def rest (x : Double) : Nat :=
  x.bits.toNat % signWeight

/-- The bits of one double are next to those of another: they are in one binade, or the first of the
next one follows the last of this one. -/
theorem binades_of_next (next : y.rest = x.rest + 1) :
    (y.biasedExponent = x.biasedExponent ∧ y.fraction = x.fraction + 1) ∨
      (y.biasedExponent = x.biasedExponent + 1 ∧ y.fraction = 0
        ∧ x.fraction + 1 = fractionRange) := by
  unfold rest signWeight at next
  unfold biasedExponent fraction fractionRange
  omega

/-- The significand goes on by one unit, and where it is full by half a unit of the next binade. The
subnormal doubles and the first binade of normal ones have one unit. -/
theorem units_of_next (next : y.rest = x.rest + 1) :
    (y.exponent = x.exponent ∧ y.significand = x.significand + 1 ∧ y.isNarrowBelow = false) ∨
      (y.exponent = x.exponent + 1 ∧ 2 * y.significand = x.significand + 1 ∧ y.isNarrowBelow) := by
  unfold exponent significand isNarrowBelow
  obtain ⟨binade, further⟩ | ⟨binade, first, last⟩ := binades_of_next next
  · left
    rw [binade, further]
    refine ⟨rfl, ?_, by simp⟩
    split <;> omega
  · rw [binade, first, if_neg (Nat.succ_ne_zero _), if_neg (Nat.succ_ne_zero _)]
    by_cases subnormal : x.biasedExponent = 0
    · left
      simp [subnormal, last]
    · right
      rw [if_neg subnormal, if_neg subnormal]
      refine ⟨by omega, by omega, ?_⟩
      simp only [beq_self_eq_true, Bool.true_and, decide_eq_true_eq]
      omega

/-- The next double is one unit further. -/
theorem magnitude_of_next (next : y.rest = x.rest + 1) : y.magnitude = x.magnitude + x.unit := by
  unfold magnitude unit
  obtain ⟨exponent, significand, -⟩ | ⟨exponent, significand, -⟩ := units_of_next next
  · rw [exponent, significand]
    push_cast
    ring
  · have doubled : 2 * (y.significand : Rat) = x.significand + 1 := by exact_mod_cast significand
    rw [exponent, zpow_add_one₀ two_ne_zero]
    linear_combination (2 : Rat) ^ x.exponent * doubled

/-- The double before it is so far below as its interval reaches twice. -/
theorem unit_of_next (next : y.rest = x.rest + 1) : x.unit = 2 * y.reachBelow * y.unit := by
  unfold reachBelow unit
  obtain ⟨exponent, -, narrow⟩ | ⟨exponent, -, narrow⟩ := units_of_next next
  · rw [exponent, narrow, if_neg Bool.false_ne_true]
    ring
  · rw [exponent, if_pos narrow, zpow_add_one₀ two_ne_zero]
    ring

end Neighbours

/-! ### Doubles with a sign -/

section Signs
variable {x y : Double} {r : Rat}

theorem toNat_bits_ofParts (negative : Bool) {rest : Nat} (small : rest < signWeight) :
    (ofParts negative rest).bits.toNat = if negative then signWeight + rest else rest := by
  unfold ofParts
  unfold signWeight at *
  rw [UInt64.toNat_ofNat']
  split <;> omega

theorem rest_ofParts (negative : Bool) {rest : Nat} (small : rest < signWeight) :
    (ofParts negative rest).rest = rest := by
  unfold Double.rest
  rw [toNat_bits_ofParts negative small]
  cases negative with
  | false => exact Nat.mod_eq_of_lt small
  | true => exact (Nat.add_mod_left _ _).trans (Nat.mod_eq_of_lt small)

theorem isNegative_ofParts (negative : Bool) {rest : Nat} (small : rest < signWeight) :
    (ofParts negative rest).isNegative = negative := by
  unfold isNegative
  rw [toNat_bits_ofParts negative small]
  cases negative with
  | false => simpa using small
  | true => simp

/-- Up to infinity there is a number. -/
theorem isNaN_of_rest_le (small : x.rest ≤ infinityBits) : x.isNaN = false := by
  unfold isNaN biasedExponent fraction
  unfold rest infinityBits signWeight at small
  unfold fractionRange at *
  simp only [Bool.and_eq_false_iff, beq_eq_false_iff_ne, bne_eq_false_iff_eq]
  omega

/-- The number in the direction in which a double is. -/
def along (x : Double) (r : Rat) : Rat :=
  if x.isNegative then -r else r

theorem along_value (x : Double) : x.along x.value = x.magnitude := by
  unfold along value
  split <;> simp

theorem abs_sub_value (x y : Double) (r : Rat) : |r - y.value| = |x.along r - x.along y.value| := by
  unfold along
  split
  · rw [← abs_neg]
    congr 1
    ring
  · rfl

theorem along_value_of_same (same : y.isNegative = x.isNegative) :
    x.along y.value = y.magnitude := by
  rw [← along_value y]
  unfold along
  rw [same]

theorem magnitude_of_value_eq (same : y.value = x.value) : x.along y.value = x.magnitude := by
  rw [same, along_value]

theorem significand_cast_pos (nonzero : x.isZero = false) : (1 : Rat) ≤ x.significand := by
  exact_mod_cast significand_pos nonzero

/-- Seen from a double, the others are at least as far away as its neighbours, whatever their
sign. -/
theorem value_apart (nonzero : x.isZero = false) (y : Double) :
    y.value = x.value ∨ x.magnitude + x.unit ≤ x.along y.value ∨
      x.along y.value + 2 * x.reachBelow * x.unit ≤ x.magnitude := by
  by_cases same : y.isNegative = x.isNegative
  · rw [along_value_of_same same]
    obtain equal | apart := magnitude_apart x y
    · left
      unfold value
      rw [same, equal]
    · exact .inr apart
  · have opposite : x.along y.value = -y.magnitude := by
      unfold along value
      cases here : x.isNegative <;> cases there : y.isNegative <;> simp_all
    have pos := x.unit_pos
    have reach := x.reachBelow_le
    have least := significand_cast_pos nonzero
    have below := y.magnitude_nonneg
    rw [opposite, x.magnitude_eq_units]
    right
    right
    nlinarith

end Signs

/-! ### Nearness -/

section Nearness
variable {x y : Double} {r : Rat}

/-- The interval of a double, from the double. -/
theorem isRoundingOf_iff (nonzero : x.isZero = false) :
    x.isRoundingOf r ↔ x.magnitude - x.reachBelow * x.unit ≤ r ∧ r ≤ x.magnitude + x.unit / 2 ∧
      (r = x.magnitude - x.reachBelow * x.unit ∨ r = x.magnitude + x.unit / 2 →
        x.significand % 2 = 0) := by
  have low : x.lowerEnd = x.magnitude - x.reachBelow * x.unit := by
    rw [lowerEnd_eq nonzero, magnitude_eq_units, unit]
    ring
  have high : x.upperEnd = x.magnitude + x.unit / 2 := by
    rw [upperEnd_eq, magnitude_eq_units, unit]
    ring
  unfold isRoundingOf
  rw [low, high]
  split
  case isTrue even => simp [even]
  case isFalse odd =>
    simp only [Bool.and_eq_true, decide_eq_true_eq, odd, imp_false, not_or]
    constructor
    · rintro ⟨above, below⟩
      exact ⟨above.le, below.le, above.ne', below.ne⟩
    · rintro ⟨above, below, notLow, notHigh⟩
      exact ⟨lt_of_le_of_ne above (Ne.symm notLow), lt_of_le_of_ne below notHigh⟩

/-- Within half the distance to the others, the ends only where it matters not, a number is
nearest. -/
theorem abs_sub_le_of_apart {t m other below above : Rat} (low : m - below ≤ t)
    (high : t ≤ m + above) (reaches : 0 < below ∧ 0 < above)
    (apart : m + 2 * above ≤ other ∨ other + 2 * below ≤ m) :
    |t - m| ≤ |t - other| ∧ (|t - m| = |t - other| → t = m - below ∨ t = m + above) := by
  obtain ⟨wide, wide'⟩ := reaches
  obtain further | nearer := apart
  · have far : |t - other| = other - t := by
      rw [abs_of_nonpos (by linarith), neg_sub]
    rw [far]
    obtain ⟨near, -⟩ | ⟨near, -⟩ := abs_cases (t - m)
    · rw [near]
      exact ⟨by linarith, fun same => .inr (by linarith)⟩
    · rw [near]
      exact ⟨by linarith, fun same => absurd same (by linarith)⟩
  · have far : |t - other| = t - other := abs_of_nonneg (by linarith)
    rw [far]
    obtain ⟨near, -⟩ | ⟨near, -⟩ := abs_cases (t - m)
    · rw [near]
      exact ⟨by linarith, fun same => absurd same (by linarith)⟩
    · rw [near]
      exact ⟨by linarith, fun same => .inl (by linarith)⟩

theorem reachBelow_pos (x : Double) : 0 < x.reachBelow := by
  unfold reachBelow
  split <;> norm_num

/-- In its interval a double is nearest. -/
theorem isNearest_of_isRoundingOf (finite : x.isFinite) (nonzero : x.isZero = false)
    (rounds : x.isRoundingOf (x.along r)) : x.IsNearest r := by
  obtain ⟨low, high, ends⟩ := (isRoundingOf_iff nonzero).mp rounds
  have reaches : 0 < x.reachBelow * x.unit ∧ 0 < x.unit / 2 :=
    ⟨mul_pos x.reachBelow_pos x.unit_pos, by linarith [x.unit_pos]⟩
  have settled : ∀ y : Double, y.value = x.value ∨
      |r - x.value| ≤ |r - y.value| ∧ (|r - x.value| = |r - y.value| → x.significand % 2 = 0) := by
    intro y
    rw [abs_sub_value x x, abs_sub_value x y, along_value]
    obtain same | apart := value_apart nonzero y
    · exact .inl same
    · have apart' : x.magnitude + 2 * (x.unit / 2) ≤ x.along y.value ∨
          x.along y.value + 2 * (x.reachBelow * x.unit) ≤ x.magnitude :=
        apart.imp (fun further => by linarith) (fun nearer => by linarith)
      obtain ⟨nearest, tie⟩ := abs_sub_le_of_apart low high reaches apart'
      exact .inr ⟨nearest, fun same => ends (tie same)⟩
  refine ⟨finite, ?_, ?_⟩
  · intro y _
    obtain same | ⟨nearest, -⟩ := settled y
    · rw [same]
    · exact nearest
  · intro y _ tie
    obtain same | ⟨-, even⟩ := settled y
    · exact .inl same
    · exact .inr (even tie)

/-- The next double away from zero, which may be an infinity. -/
theorem exists_above (finite : x.isFinite) :
    ∃ y : Double, y.isNaN = false ∧ x.along y.value = x.magnitude + x.unit := by
  have range : x.rest < infinityBits := rest_lt finite
  have size : infinityBits < signWeight := by decide
  have small : x.rest + 1 < signWeight := by omega
  have next := rest_ofParts x.isNegative small
  refine ⟨ofParts x.isNegative (x.rest + 1), isNaN_of_rest_le (by omega), ?_⟩
  rw [along_value_of_same (isNegative_ofParts x.isNegative small), magnitude_of_next next]

/-- The next double towards zero. -/
theorem exists_below (finite : x.isFinite) (nonzero : x.isZero = false) :
    ∃ y : Double, y.isNaN = false ∧
      x.along y.value + 2 * x.reachBelow * x.unit = x.magnitude := by
  have range : x.rest < infinityBits := rest_lt finite
  have size : infinityBits < signWeight := by decide
  have some_below : x.rest ≠ 0 := by
    intro none_below
    have counted : x.rest = _ := rest_eq finite
    have least := significand_pos nonzero
    omega
  have small : x.rest - 1 < signWeight := by omega
  have before := rest_ofParts x.isNegative small
  have next : x.rest = (ofParts x.isNegative (x.rest - 1)).rest + 1 := by omega
  refine ⟨ofParts x.isNegative (x.rest - 1), isNaN_of_rest_le (by omega), ?_⟩
  rw [along_value_of_same (isNegative_ofParts x.isNegative small), magnitude_of_next next,
    unit_of_next next]

/-- What is no further from one number than from another is on its side of the middle. -/
theorem le_middle_of_abs_sub_le {t m other : Rat} (near : |t - m| ≤ |t - other|)
    (further : m < other) : t ≤ (m + other) / 2 := by
  by_contra beyond
  rw [abs_of_nonneg (by linarith)] at near
  obtain ⟨far, -⟩ | ⟨far, -⟩ := abs_cases (t - other)
  · linarith
  · linarith

theorem middle_le_of_abs_sub_le {t m other : Rat} (near : |t - m| ≤ |t - other|)
    (nearer : other < m) : (m + other) / 2 ≤ t := by
  by_contra beyond
  rw [abs_of_nonpos (by linarith)] at near
  obtain ⟨far, -⟩ | ⟨far, -⟩ := abs_cases (t - other)
  · linarith
  · linarith

theorem abs_sub_eq_of_middle {t m other : Rat} (middle : t = (m + other) / 2) :
    |t - m| = |t - other| := by
  rw [middle, ← abs_neg]
  congr 1
  ring

/-- A double that is nearest is at least as near as its neighbours. -/
theorem isRoundingOf_of_isNearest (nonzero : x.isZero = false) (near : x.IsNearest r) :
    x.isRoundingOf (x.along r) := by
  obtain ⟨above, number, further⟩ := exists_above near.finite
  obtain ⟨below, number', nearer⟩ := exists_below near.finite nonzero
  have reach := mul_pos x.reachBelow_pos x.unit_pos
  have unit := x.unit_pos
  have up := near.nearest above number
  have down := near.nearest below number'
  have tieUp := near.even_of_tie above number
  have tieDown := near.even_of_tie below number'
  rw [abs_sub_value x x, abs_sub_value x, along_value] at up down tieUp tieDown
  have other : above.value ≠ x.value := by
    intro same
    rw [magnitude_of_value_eq same] at further
    linarith
  have other' : below.value ≠ x.value := by
    intro same
    rw [magnitude_of_value_eq same] at nearer
    linarith
  have middle : (x.magnitude + x.along above.value) / 2 = x.magnitude + x.unit / 2 := by
    rw [further]
    ring
  have middle' : (x.magnitude + x.along below.value) / 2 = x.magnitude - x.reachBelow * x.unit := by
    rw [← nearer]
    ring
  rw [isRoundingOf_iff nonzero, ← middle, ← middle']
  refine ⟨middle_le_of_abs_sub_le down (by linarith), le_middle_of_abs_sub_le up (by linarith), ?_⟩
  rintro (atLow | atHigh)
  · exact (tieDown (abs_sub_eq_of_middle atLow)).resolve_left other'
  · exact (tieUp (abs_sub_eq_of_middle atHigh)).resolve_left other

/-- The numbers that a double other than zero is nearest to are those of its interval. -/
theorem isNearest_iff (finite : x.isFinite) (nonzero : x.isZero = false) :
    x.IsNearest r ↔ x.isRoundingOf (x.along r) :=
  ⟨isRoundingOf_of_isNearest nonzero, isNearest_of_isRoundingOf finite nonzero⟩

theorem significand_of_isZero (zero : x.isZero) : x.significand = 0 := by
  unfold isZero at zero
  simp only [Bool.and_eq_true, beq_iff_eq] at zero
  rw [significand, if_pos zero.1, zero.2]

theorem value_of_isZero (zero : x.isZero) : x.value = 0 := by
  simp [value, magnitude, significand_of_isZero zero]

theorem isFinite_of_isZero (zero : x.isZero) : x.isFinite := by
  unfold isZero at zero
  simp only [Bool.and_eq_true, beq_iff_eq] at zero
  simp [isFinite, zero.1]

theorem isNearest_of_isZero (zero : x.isZero) : x.IsNearest 0 := by
  refine ⟨isFinite_of_isZero zero, ?_, fun _ _ _ => .inr (by rw [significand_of_isZero zero])⟩
  intro y _
  rw [value_of_isZero zero, sub_zero, abs_zero]
  exact abs_nonneg _

theorem along_zero (x : Double) : x.along 0 = 0 := by
  unfold along
  split <;> simp

/-- No number is rounded to zero and to something else: halfway between zero and the least double,
which has an odd significand, it is zero. -/
theorem IsNearest.isZero (near : x.IsNearest r) (near' : y.IsNearest r) (zero : x.isZero) :
    y.isZero := by
  by_contra another
  have nonzero : y.isZero = false := Bool.eq_false_iff.mpr another
  have positive := magnitude_pos_iff.mpr nonzero
  have origin : y.along x.value = 0 := by rw [value_of_isZero zero, along_zero]
  have down := near.nearest y (isNaN_of_finite near'.finite)
  have up := near'.nearest x (isNaN_of_finite near.finite)
  have tie := near'.even_of_tie x (isNaN_of_finite near.finite) (le_antisymm up down)
  have apart : x.value ≠ y.value := by
    intro equal
    have onto := magnitude_of_value_eq equal
    linarith
  have even := tie.resolve_left apart
  have least := significand_pos nonzero
  have several : (2 : Rat) ≤ y.significand := by exact_mod_cast (by omega : 2 ≤ y.significand)
  rw [abs_sub_value y x, abs_sub_value y y, along_value, origin] at down
  have half := le_middle_of_abs_sub_le down positive
  obtain ⟨low, -, -⟩ := (isRoundingOf_iff nonzero).mp (isRoundingOf_of_isNearest nonzero near')
  have reach := y.reachBelow_le
  have unit := y.unit_pos
  rw [magnitude_eq_units] at low half
  nlinarith

end Nearness

end Double

/-- The double that a numeral is rounded to: it is nearest to the numeral's value, and it has the
sign of the numeral, which matters where it is zero. -/
structure Numeral.RoundsTo (n : Numeral) (x : Double) : Prop where
  sign : x.isNegative = n.negative
  nearest : x.IsNearest n.value

namespace Numeral
variable {n : Numeral} {x : Double}

theorem along_value_of_sign (sign : x.isNegative = n.negative) :
    x.along n.value = n.decimal.value := by
  unfold Double.along value
  rw [sign]
  split <;> simp

theorem roundsTo_iff (finite : x.isFinite) (nonzero : x.isZero = false) :
    n.RoundsTo x ↔ x.isNegative = n.negative ∧ x.isRoundingOf n.decimal.value := by
  constructor
  · rintro ⟨sign, nearest⟩
    rw [← along_value_of_sign sign]
    exact ⟨sign, (Double.isNearest_iff finite nonzero).mp nearest⟩
  · rintro ⟨sign, rounds⟩
    rw [← along_value_of_sign sign] at rounds
    exact ⟨sign, (Double.isNearest_iff finite nonzero).mpr rounds⟩

/-- A numeral is rounded to one double. -/
theorem RoundsTo.unique {y : Double} (h : n.RoundsTo x) (h' : n.RoundsTo y) : x = y := by
  by_cases zero : x.isZero
  · have zero' := h.nearest.isZero h'.nearest zero
    rw [← Double.ofDecimal_zero zero, ← Double.ofDecimal_zero zero', h.sign, h'.sign]
  · have zero' : ¬ y.isZero := fun zero' => zero (h'.nearest.isZero h.nearest zero')
    have nonzero : x.isZero = false := Bool.eq_false_iff.mpr zero
    have nonzero' : y.isZero = false := Bool.eq_false_iff.mpr zero'
    have rounds := (roundsTo_iff h.nearest.finite nonzero).mp h
    have rounds' := (roundsTo_iff h'.nearest.finite nonzero').mp h'
    rw [← Double.ofDecimal_eq h.nearest.finite nonzero rounds.2,
      ← Double.ofDecimal_eq h'.nearest.finite nonzero' rounds'.2, h.sign, h'.sign]

end Numeral

end CircuitNetlist
