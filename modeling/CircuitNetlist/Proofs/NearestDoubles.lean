import CircuitNetlist.Decimal.Nearest
import CircuitNetlist.Decimal.Shortest
import CircuitNetlist.Proofs.Decimals
import Mathlib.Data.Rat.Floor
import Mathlib.Tactic.FieldSimp
import Mathlib.Tactic.NormNum

/-!
# Doubles read back

Every finite double is read back from the shortest decimal that is written for it. The reals that
round to a double are an interval around it, counted in units of its last place from half a unit
below its significand to half a unit above; below a power of two the units are half as wide, and the
carry out of the significand lands in the exponent.
-/
namespace CircuitNetlist

/-! ### Rounding -/

theorem floor_toNat_eq {r : Rat} {k : Nat} (low : k ≤ r) (high : r < k + 1) :
    r.floor.toNat = k := by
  have floor : ⌊r⌋ = (k : Int) :=
    Int.floor_eq_iff.mpr ⟨by exact_mod_cast low, by exact_mod_cast high⟩
  change ⌊r⌋.toNat = k
  rw [floor, Int.toNat_natCast]

/-- Within half a unit around an integer, the ends only for an even one, it is rounded to that. -/
theorem roundHalfEven_eq {r : Rat} {m : Nat} (pos : 0 ≤ r) (low : m - 1 / 2 ≤ r)
    (high : r ≤ m + 1 / 2) (tie : r = m - 1 / 2 ∨ r = m + 1 / 2 → m % 2 = 0) :
    roundHalfEven r = m := by
  unfold roundHalfEven
  rcases le_or_gt (m : Rat) r with above | below
  · have floor : r.floor.toNat = m := floor_toNat_eq above (by linarith)
    simp only [floor]
    rcases lt_or_eq_of_le high with inside | outer
    · rw [if_pos (by linarith)]
    · rw [if_neg (by linarith), if_neg (by linarith), if_pos (tie (.inr outer))]
  · obtain ⟨k, rfl⟩ : ∃ k, m = k + 1 := by
      apply Nat.exists_eq_succ_of_ne_zero
      rintro rfl
      push_cast at below
      linarith
    push_cast at low below high tie
    have floor : r.floor.toNat = k := floor_toNat_eq (by linarith) below
    simp only [floor]
    rcases lt_or_eq_of_le low with inside | outer
    · rw [if_neg (by linarith), if_pos (by linarith)]
    · have odd : ¬ k % 2 = 0 := by
        have even := tie (.inl outer.symm)
        omega
      rw [if_neg (by linarith), if_neg (by linarith), if_neg odd]

/-- The binade of a positive real is the power of two below it. -/
theorem binade_spec {r : Rat} (pos : 0 < r) :
    (2 : Rat) ^ binade r ≤ r ∧ r < (2 : Rat) ^ (binade r + 1) := by
  have num : r.num.toNat ≠ 0 := by
    have := Rat.num_pos.mpr pos
    omega
  have numerator : ((r.num.toNat : Nat) : Rat) = r.num := by
    have := Rat.num_pos.mpr pos
    exact_mod_cast Int.toNat_of_nonneg this.le
  have fraction : r = (r.num.toNat : Rat) / r.den := by
    rw [numerator, Rat.num_div_den]
  have den : (0 : Rat) < r.den := by
    exact_mod_cast r.den_pos
  have numLow : ((2 : Rat) ^ (r.num.toNat.log2 : Int)) ≤ r.num.toNat := by
    exact_mod_cast Nat.log2_self_le num
  have numHigh : (r.num.toNat : Rat) < (2 : Rat) ^ ((r.num.toNat.log2 : Int) + 1) := by
    exact_mod_cast Nat.lt_log2_self
  have denLow : ((2 : Rat) ^ (r.den.log2 : Int)) ≤ r.den := by
    exact_mod_cast Nat.log2_self_le r.den_nz
  have denHigh : (r.den : Rat) < (2 : Rat) ^ ((r.den.log2 : Int) + 1) := by
    exact_mod_cast Nat.lt_log2_self
  have high : r < (2 : Rat) ^ ((r.num.toNat.log2 : Int) - (r.den.log2 : Int) + 1) := by
    calc r = r.num.toNat / r.den := fraction
      _ < (2 : Rat) ^ ((r.num.toNat.log2 : Int) + 1) / (2 : Rat) ^ (r.den.log2 : Int) :=
        div_lt_div₀ numHigh denLow (by positivity) (by positivity)
      _ = (2 : Rat) ^ ((r.num.toNat.log2 : Int) - (r.den.log2 : Int) + 1) := by
        rw [← zpow_sub₀ two_ne_zero]
        congr 1
        omega
  have low : (2 : Rat) ^ ((r.num.toNat.log2 : Int) - (r.den.log2 : Int) - 1) ≤ r := by
    calc (2 : Rat) ^ ((r.num.toNat.log2 : Int) - (r.den.log2 : Int) - 1)
        = (2 : Rat) ^ (r.num.toNat.log2 : Int) / (2 : Rat) ^ ((r.den.log2 : Int) + 1) := by
          rw [← zpow_sub₀ two_ne_zero]
          congr 1
          omega
      _ ≤ r.num.toNat / r.den := div_le_div₀ (by positivity) numLow den denHigh.le
      _ = r := fraction.symm
  unfold binade
  dsimp only
  split
  case isTrue reached => exact ⟨reached, high⟩
  case isFalse missed =>
    constructor
    · exact low
    · rw [sub_add_cancel]
      exact lt_of_not_ge missed

theorem binade_eq {r : Rat} {k : Int} (low : (2 : Rat) ^ k ≤ r) (high : r < (2 : Rat) ^ (k + 1)) :
    binade r = k := by
  have pos : 0 < r := lt_of_lt_of_le (by positivity) low
  obtain ⟨below, above⟩ := binade_spec pos
  have first : k < binade r + 1 :=
    (zpow_lt_zpow_iff_right₀ one_lt_two).mp (lt_of_le_of_lt low above)
  have second : binade r < k + 1 :=
    (zpow_lt_zpow_iff_right₀ one_lt_two).mp (lt_of_le_of_lt below high)
  omega

namespace Double

/-! ### The parts of a double -/

theorem neg_le_exponent (x : Double) : -1074 ≤ x.exponent := by
  unfold exponent
  split <;> omega

theorem exponent_le {x : Double} (finite : x.isFinite) : x.exponent ≤ 971 := by
  have bound : x.biasedExponent < 2048 := Nat.mod_lt _ (by decide)
  have apart : x.biasedExponent ≠ 2047 := by simpa [isFinite] using finite
  unfold exponent
  split <;> omega

theorem fraction_lt (x : Double) : x.fraction < fractionRange :=
  Nat.mod_lt _ (by decide)

theorem significand_succ_le (x : Double) : (x.significand : Rat) + 1 ≤ 2 ^ 53 := by
  have bits : x.significand + 1 ≤ 2 ^ 53 := by
    have := x.fraction_lt
    unfold significand
    unfold fractionRange at *
    split <;> omega
  exact_mod_cast bits

theorem significand_pos {x : Double} (nonzero : x.isZero = false) : 0 < x.significand := by
  have range : 0 < fractionRange := by decide
  unfold significand
  split
  case isTrue subnormal =>
    have : x.fraction ≠ 0 := by simpa [isZero, subnormal] using nonzero
    omega
  case isFalse => omega

/-- Above the least exponent the significand has its leading one. -/
theorem fractionRange_le_significand {x : Double} (normal : -1074 < x.exponent) :
    fractionRange ≤ x.significand := by
  unfold exponent at normal
  unfold significand
  split
  case isTrue subnormal => simp [subnormal] at normal
  case isFalse => omega

theorem isNarrowBelow_iff {x : Double} :
    x.isNarrowBelow ↔ x.significand = fractionRange ∧ -1074 < x.exponent := by
  have := x.fraction_lt
  unfold isNarrowBelow significand exponent
  simp only [Bool.and_eq_true, beq_iff_eq, decide_eq_true_eq]
  split <;> omega

/-- The bits without the sign count the units of the last place, binade after binade. -/
theorem rest_eq {x : Double} (finite : x.isFinite) :
    x.bits.toNat % signWeight = (x.exponent + 1074).toNat * fractionRange + x.significand := by
  have apart : x.biasedExponent ≠ 2047 := by simpa [isFinite] using finite
  have size := x.bits.toNat_lt
  unfold significand exponent
  unfold biasedExponent fraction signWeight fractionRange at *
  split <;> omega

theorem rest_lt {x : Double} (finite : x.isFinite) : x.bits.toNat % signWeight < infinityBits := by
  have apart : x.biasedExponent ≠ 2047 := by simpa [isFinite] using finite
  have size := x.bits.toNat_lt
  unfold biasedExponent at apart
  unfold infinityBits signWeight fractionRange at *
  omega

theorem ofParts_rest (x : Double) : ofParts x.isNegative (x.bits.toNat % signWeight) = x := by
  have size := x.bits.toNat_lt
  have whole : (if x.isNegative then signWeight + x.bits.toNat % signWeight
      else x.bits.toNat % signWeight) = x.bits.toNat := by
    unfold isNegative signWeight
    simp only [decide_eq_true_eq]
    split <;> omega
  unfold ofParts
  rw [whole, UInt64.ofNat_toNat]

/-! ### The interval around a double -/

/-- How far below a double its interval reaches, in units of the last place. -/
def reachBelow (x : Double) : Rat :=
  if x.isNarrowBelow then 1 / 4 else 1 / 2

theorem reachBelow_le (x : Double) : x.reachBelow ≤ 1 / 2 := by
  unfold reachBelow
  split <;> norm_num

theorem quarter_unit (x : Double) :
    (2 : Rat) ^ (x.exponent - 2) = (2 : Rat) ^ x.exponent / 4 := by
  rw [zpow_sub₀ two_ne_zero]
  norm_num

theorem lowerEnd_eq {x : Double} (nonzero : x.isZero = false) :
    x.lowerEnd = (x.significand - x.reachBelow) * (2 : Rat) ^ x.exponent := by
  have pos := significand_pos nonzero
  unfold lowerEnd reachBelow
  rw [quarter_unit]
  split
  · rw [Nat.cast_sub (by omega)]
    push_cast
    ring
  · rw [Nat.cast_sub (by omega)]
    push_cast
    ring

theorem upperEnd_eq (x : Double) :
    x.upperEnd = (x.significand + 1 / 2) * (2 : Rat) ^ x.exponent := by
  unfold upperEnd
  rw [quarter_unit]
  push_cast
  ring

/-- A real that rounds to a double, in units of the last place. -/
theorem units_of_isRoundingOf {x : Double} {r : Rat} (nonzero : x.isZero = false)
    (rounds : x.isRoundingOf r) :
    (x.significand - x.reachBelow ≤ r / (2 : Rat) ^ x.exponent
      ∧ r / (2 : Rat) ^ x.exponent ≤ x.significand + 1 / 2)
      ∧ (r / (2 : Rat) ^ x.exponent = x.significand - x.reachBelow
          ∨ r / (2 : Rat) ^ x.exponent = x.significand + 1 / 2 → x.significand % 2 = 0) := by
  have unit : (0 : Rat) < (2 : Rat) ^ x.exponent := by positivity
  unfold isRoundingOf at rounds
  rw [lowerEnd_eq nonzero, upperEnd_eq] at rounds
  split at rounds
  case isTrue even =>
    simp only [Bool.and_eq_true, decide_eq_true_eq] at rounds
    exact ⟨⟨(le_div_iff₀ unit).mpr rounds.1, (div_le_iff₀ unit).mpr rounds.2⟩, fun _ => even⟩
  case isFalse odd =>
    simp only [Bool.and_eq_true, decide_eq_true_eq] at rounds
    have low := (lt_div_iff₀ unit).mpr rounds.1
    have high := (div_lt_iff₀ unit).mpr rounds.2
    refine ⟨⟨low.le, high.le⟩, ?_⟩
    rintro (atLow | atHigh)
    · exact absurd atLow low.ne'
    · exact absurd atHigh high.ne

/-- In units of any place, the binade is that of the place and of the units. -/
theorem binade_of_units {r : Rat} {place k : Int} (low : (2 : Rat) ^ k ≤ r / (2 : Rat) ^ place)
    (high : r / (2 : Rat) ^ place < (2 : Rat) ^ (k + 1)) : binade r = place + k := by
  have unit : (0 : Rat) < (2 : Rat) ^ place := by positivity
  apply binade_eq
  · rw [add_comm, zpow_add₀ two_ne_zero]
    exact (le_div_iff₀ unit).mp low
  · rw [add_assoc, add_comm, zpow_add₀ two_ne_zero]
    exact (div_lt_iff₀ unit).mp high

theorem nearestBits_of_place {r : Rat} {place : Int} {units : Nat}
    (at_place : max (binade r - 52) (-1074) = place)
    (rounded : roundHalfEven (r / (2 : Rat) ^ place) = units)
    (range : (place + 1074).toNat * fractionRange + units < infinityBits) :
    nearestBits r = (place + 1074).toNat * fractionRange + units := by
  unfold nearestBits
  simp only [at_place, rounded]
  exact min_eq_left range.le

/-- The reals around a double round to its significand, counted in its units. -/
theorem round_units_eq {x : Double} {r : Rat} (nonzero : x.isZero = false)
    (rounds : x.isRoundingOf r) :
    roundHalfEven (r / (2 : Rat) ^ x.exponent) = x.significand := by
  obtain ⟨⟨low, high⟩, tie⟩ := units_of_isRoundingOf nonzero rounds
  have reach := x.reachBelow_le
  have positive : (1 : Rat) ≤ x.significand := by exact_mod_cast significand_pos nonzero
  apply roundHalfEven_eq
  · linarith
  · linarith
  · exact high
  · rintro (atLow | atHigh)
    · exact tie (.inl (by linarith))
    · exact tie (.inr atHigh)

/-- The place of a real around a double is that of the double, unless the rounding carries. -/
theorem place_eq {x : Double} {r : Rat} (nonzero : x.isZero = false) (rounds : x.isRoundingOf r)
    (stays : ¬ (-1074 < x.exponent ∧ r / (2 : Rat) ^ x.exponent < 2 ^ 52)) :
    max (binade r - 52) (-1074) = x.exponent := by
  obtain ⟨⟨low, high⟩, -⟩ := units_of_isRoundingOf nonzero rounds
  have unit : (0 : Rat) < (2 : Rat) ^ x.exponent := by positivity
  have bottom := x.neg_le_exponent
  have leading := x.significand_succ_le
  rcases le_or_gt ((2 : Rat) ^ 52) (r / (2 : Rat) ^ x.exponent) with normal | subnormal
  · have binade : binade r = x.exponent + 52 := by
      apply binade_of_units
      · exact_mod_cast normal
      · norm_num at *
        linarith
    omega
  · have positive : 0 < r := by
      have reach := x.reachBelow_le
      have least : (1 : Rat) ≤ x.significand := by exact_mod_cast significand_pos nonzero
      have units : 0 < r / (2 : Rat) ^ x.exponent := by linarith
      exact (div_pos_iff_of_pos_right unit).mp units
    have below : r < (2 : Rat) ^ (52 + x.exponent) := by
      rw [zpow_add₀ two_ne_zero]
      exact (div_lt_iff₀ unit).mp subnormal
    have binade : binade r < 52 + x.exponent :=
      (zpow_lt_zpow_iff_right₀ one_lt_two).mp (lt_of_le_of_lt (binade_spec positive).1 below)
    have least : x.exponent = -1074 := by
      by_contra normal
      exact stays ⟨by omega, subnormal⟩
    omega

/-- Below a power of two the units are half as wide and the rounding carries into the exponent. -/
theorem nearestBits_of_carry {x : Double} {r : Rat} (finite : x.isFinite)
    (nonzero : x.isZero = false) (rounds : x.isRoundingOf r) (normal : -1074 < x.exponent)
    (below : r / (2 : Rat) ^ x.exponent < 2 ^ 52) :
    nearestBits r = x.bits.toNat % signWeight := by
  obtain ⟨⟨low, high⟩, -⟩ := units_of_isRoundingOf nonzero rounds
  have range := rest_lt finite
  rw [rest_eq finite] at range ⊢
  have leading : x.significand = fractionRange := by
    have reach := x.reachBelow_le
    have least := fractionRange_le_significand normal
    have most : (x.significand : Rat) < (2 ^ 52 + 1 : Nat) := by
      push_cast
      linarith
    have := Nat.cast_lt.mp most
    unfold fractionRange at *
    omega
  have narrow : x.reachBelow = 1 / 4 := if_pos (isNarrowBelow_iff.mpr ⟨leading, normal⟩)
  have power : (x.significand : Rat) = 2 ^ 52 := by
    rw [leading]
    norm_num [fractionRange]
  have half : r / (2 : Rat) ^ (x.exponent - 1) = 2 * (r / (2 : Rat) ^ x.exponent) := by
    rw [zpow_sub₀ two_ne_zero, zpow_one]
    field_simp
  have binade : binade r = x.exponent + 51 := by
    apply binade_of_units
    · norm_num at *
      linarith
    · norm_num at *
      linarith
  have rounded : roundHalfEven (r / (2 : Rat) ^ (x.exponent - 1)) = 2 * fractionRange := by
    have size : ((2 * fractionRange : Nat) : Rat) = 2 ^ 53 := by norm_num [fractionRange]
    rw [half]
    apply roundHalfEven_eq
    · linarith
    · rw [size]
      linarith
    · rw [size]
      linarith
    · exact fun _ => by decide
  have carry : (x.exponent - 1 + 1074).toNat * fractionRange + 2 * fractionRange
      = (x.exponent + 1074).toNat * fractionRange + x.significand := by
    unfold fractionRange at *
    omega
  rw [← carry] at range ⊢
  exact nearestBits_of_place (by omega) rounded range

/-- A real that rounds to a double has the bits of the double. -/
theorem nearestBits_eq {x : Double} {r : Rat} (finite : x.isFinite) (nonzero : x.isZero = false)
    (rounds : x.isRoundingOf r) : nearestBits r = x.bits.toNat % signWeight := by
  by_cases carries : -1074 < x.exponent ∧ r / (2 : Rat) ^ x.exponent < 2 ^ 52
  · exact nearestBits_of_carry finite nonzero rounds carries.1 carries.2
  · have range := rest_lt finite
    rw [rest_eq finite] at range ⊢
    exact nearestBits_of_place (place_eq nonzero rounds carries) (round_units_eq nonzero rounds)
      range

/-! ### The shortest decimal -/

/-- What is found on a grid is one of the two neighbours there, and rounds to the double. -/
theorem neighbour_of_onGrid {x : Double} {tie : Tie} {grid : Int} {d : Decimal}
    (found : x.onGrid tie grid = some d) :
    x.isRoundingOf d.value ∧ (d = ⟨(x.magnitude / (10 : Rat) ^ grid).floor.toNat, grid⟩ ∨
      d = ⟨(x.magnitude / (10 : Rat) ^ grid).floor.toNat + 1, grid⟩) := by
  unfold onGrid at found
  dsimp only at found
  generalize (x.magnitude / (10 : Rat) ^ grid).floor.toNat = below at found
  split at found
  case h_1 => simp at found
  case h_2 lower _ =>
    obtain rfl := Option.some.inj found
    exact ⟨lower, .inl rfl⟩
  case h_3 _ upper =>
    obtain rfl := Option.some.inj found
    exact ⟨upper, .inr rfl⟩
  case h_4 lower upper =>
    -- both neighbours round to the double, so it does not matter which is taken
    have either : d = ⟨below, grid⟩ ∨ d = ⟨below + 1, grid⟩ := by
      split at found
      · exact .inl (Option.some.inj found).symm
      · split at found
        · exact .inr (Option.some.inj found).symm
        · cases tie with
          | up => exact .inr (Option.some.inj found).symm
          | toEven =>
            obtain rfl := Option.some.inj found
            by_cases even : below % 2 = 0
            · simp [even]
            · simp [even]
    rcases either with rfl | rfl
    · exact ⟨lower, .inl rfl⟩
    · exact ⟨upper, .inr rfl⟩

theorem value_exactDecimal (x : Double) : x.exactDecimal.value = x.magnitude := by
  unfold exactDecimal magnitude Decimal.value
  split
  case isTrue small =>
    obtain ⟨places, negative⟩ : ∃ places : Nat, x.exponent = -(places : Int) :=
      ⟨x.exponent.natAbs, by omega⟩
    have unit : (5 : Rat) ^ places * ((10 : Rat) ^ places)⁻¹ = ((2 : Rat) ^ places)⁻¹ := by
      rw [show (10 : Rat) = 5 * 2 by norm_num, mul_pow]
      field_simp
    simp only [negative, neg_neg, Int.toNat_natCast, zpow_neg, zpow_natCast, Nat.pow_eq]
    push_cast
    rw [mul_assoc, unit]
  case isFalse large =>
    obtain ⟨places, positive⟩ : ∃ places : Nat, x.exponent = (places : Int) :=
      ⟨x.exponent.natAbs, by omega⟩
    simp only [positive, Int.toNat_natCast, zpow_natCast, zpow_zero, mul_one, Nat.pow_eq]
    push_cast
    rfl

theorem isRoundingOf_magnitude {x : Double} (nonzero : x.isZero = false) :
    x.isRoundingOf x.magnitude := by
  have unit : (0 : Rat) < (2 : Rat) ^ x.exponent := by positivity
  have reach : 0 < x.reachBelow := by
    unfold reachBelow
    split <;> norm_num
  have low : x.lowerEnd < x.magnitude := by
    rw [lowerEnd_eq nonzero]
    exact mul_lt_mul_of_pos_right (by linarith) unit
  have high : x.magnitude < x.upperEnd := by
    rw [upperEnd_eq]
    exact mul_lt_mul_of_pos_right (by linarith) unit
  unfold isRoundingOf
  split
  · simp [low.le, high.le]
  · simp [low, high]

theorem isRoundingOf_shortest {x : Double} (nonzero : x.isZero = false) (tie : Tie) :
    x.isRoundingOf (x.shortest tie).value := by
  unfold shortest
  rw [Decimal.value_normalize]
  cases search : (List.range 17).findSome? fun n : Nat =>
      x.onGrid tie (decade x.magnitude - (n + 1 : Nat)) with
  | none =>
    simp only [Option.getD_none, value_exactDecimal]
    exact isRoundingOf_magnitude nonzero
  | some d =>
    obtain ⟨n, -, found⟩ := List.exists_of_findSome?_eq_some search
    exact (neighbour_of_onGrid found).1

/-- Every decimal that rounds to a finite double is within the range in which digits matter. -/
theorem leadingExponent_of_isRoundingOf {x : Double} {d : Decimal} (finite : x.isFinite)
    (nonzero : x.isZero = false) (rounds : x.isRoundingOf d.value) :
    d.digits ≠ 0 ∧ -330 ≤ d.leadingExponent ∧ d.leadingExponent ≤ 310 := by
  obtain ⟨⟨low, high⟩, -⟩ := units_of_isRoundingOf nonzero rounds
  have unit : (0 : Rat) < (2 : Rat) ^ x.exponent := by positivity
  have positive : (1 : Rat) ≤ x.significand := by exact_mod_cast significand_pos nonzero
  have digits : d.digits ≠ 0 := by
    intro zero
    have reach := x.reachBelow_le
    have nothing : d.value = 0 := by simp [Decimal.value, zero]
    rw [nothing, zero_div] at low
    linarith
  refine ⟨digits, ?_, ?_⟩
  · by_contra beyond
    have least : (1 / 2 : Rat) * (2 : Rat) ^ (-1074 : Int) ≤ d.value := by
      have reach := x.reachBelow_le
      calc (1 / 2 : Rat) * (2 : Rat) ^ (-1074 : Int)
          ≤ (x.significand - x.reachBelow) * (2 : Rat) ^ x.exponent :=
            mul_le_mul (by linarith) (zpow_le_zpow_right₀ one_le_two x.neg_le_exponent)
              (by positivity) (by linarith)
        _ ≤ d.value := (le_div_iff₀ unit).mp low
    have most : d.value < (10 : Rat) ^ (-330 : Int) :=
      lt_of_lt_of_le d.value_lt_pow_leadingExponent
        (zpow_le_zpow_right₀ (by norm_num) (by omega))
    have apart : ((10 : Rat) ^ 330)⁻¹ < (2 * 2 ^ 1074)⁻¹ := by
      apply inv_strictAnti₀ (by positivity)
      exact_mod_cast (by decide +kernel : 2 * 2 ^ 1074 < 10 ^ 330)
    rw [zpow_neg, zpow_ofNat] at least most
    rw [mul_inv, ← one_div 2] at apart
    exact absurd (least.trans_lt (most.trans apart)) (lt_irrefl _)
  · by_contra beyond
    have least : (10 : Rat) ^ (311 : Int) ≤ d.value :=
      le_trans (zpow_le_zpow_right₀ (by norm_num) (by omega))
        (Decimal.pow_leadingExponent_le digits)
    have most : d.value ≤ (2 : Rat) ^ 53 * (2 : Rat) ^ (971 : Int) := by
      have leading : (x.significand : Rat) + 1 ≤ 2 ^ 53 := x.significand_succ_le
      calc d.value ≤ (x.significand + 1 / 2) * (2 : Rat) ^ x.exponent := (div_le_iff₀ unit).mp high
        _ ≤ (2 : Rat) ^ 53 * (2 : Rat) ^ (971 : Int) :=
          mul_le_mul (by linarith) (zpow_le_zpow_right₀ one_le_two (exponent_le finite))
            (by positivity) (by positivity)
    have apart : ((2 : Rat) ^ 53 * (2 : Rat) ^ 971) < 10 ^ 311 := by
      exact_mod_cast (by decide +kernel : 2 ^ 53 * 2 ^ 971 < 10 ^ 311)
    rw [zpow_ofNat] at least most
    exact absurd (least.trans most) (not_le.mpr apart)

/-- A decimal that rounds to a double is read as it. -/
theorem ofDecimal_eq {x : Double} {d : Decimal} (finite : x.isFinite) (nonzero : x.isZero = false)
    (rounds : x.isRoundingOf d.value) : ofDecimal x.isNegative d = x := by
  obtain ⟨digits, above, below⟩ := leadingExponent_of_isRoundingOf finite nonzero rounds
  unfold ofDecimal
  rw [if_neg digits, if_neg (by omega), if_neg (by omega), nearestBits_eq finite nonzero rounds]
  exact x.ofParts_rest

/-- Zero is read back with its sign. -/
theorem ofDecimal_zero {x : Double} (zero : x.isZero) : ofDecimal x.isNegative ⟨0, 0⟩ = x := by
  have rest : x.bits.toNat % signWeight = 0 := by
    unfold isZero biasedExponent fraction fractionRange at zero
    simp only [Bool.and_eq_true, beq_iff_eq] at zero
    unfold signWeight
    omega
  calc ofDecimal x.isNegative ⟨0, 0⟩ = ofParts x.isNegative 0 := rfl
    _ = ofParts x.isNegative (x.bits.toNat % signWeight) := by rw [rest]
    _ = x := x.ofParts_rest

end Double

end CircuitNetlist
