import CircuitNetlist.Proofs.DoubleNeighbours

/-!
# Shortest decimals

A grid of decimals has a point in the interval of a double only if one of the two points next to the
double is there. A decimal of some digits that is rounded to the double shows such a point on the
grid on which the double itself has as many digits: the decimal is on this grid, or the power of ten
below the double is between them. So the search that goes from coarse to fine grids stops with no
more digits than any decimal needs, and at the latest on the seventeenth grid, whose steps are
smaller than the interval.
-/
namespace CircuitNetlist

/-! ### The decade of a number -/

theorem floor_toNat_spec {r : Rat} (nonneg : 0 ≤ r) :
    (r.floor.toNat : Rat) ≤ r ∧ r < r.floor.toNat + 1 := by
  have floor : ((⌊r⌋.toNat : Nat) : Rat) = ⌊r⌋ := by
    exact_mod_cast Int.toNat_of_nonneg (Int.floor_nonneg.mpr nonneg)
  change ((⌊r⌋.toNat : Nat) : Rat) ≤ r ∧ r < (⌊r⌋.toNat : Nat) + 1
  rw [floor]
  exact ⟨Int.floor_le r, Int.lt_floor_add_one r⟩

/-- The digits before the point count the powers of ten. -/
theorem digitCount_floor_spec {r : Rat} (large : 1 ≤ r) :
    (10 : Rat) ^ (digitCount r.floor.toNat - 1) ≤ r
      ∧ r < (10 : Rat) ^ digitCount r.floor.toNat := by
  obtain ⟨low, high⟩ := floor_toNat_spec (zero_le_one.trans large)
  have nonzero : r.floor.toNat ≠ 0 := by
    intro none
    rw [none] at high
    norm_num at high
    linarith
  have least : ((10 : Rat) ^ (digitCount r.floor.toNat - 1)) ≤ r.floor.toNat := by
    exact_mod_cast pow_digitCount_le nonzero
  have most : (r.floor.toNat : Rat) + 1 ≤ (10 : Rat) ^ digitCount r.floor.toNat := by
    exact_mod_cast lt_pow_digitCount r.floor.toNat
  exact ⟨least.trans low, high.trans_le most⟩

/-- The decade of a positive number is that of the power of ten above it. -/
theorem decade_spec {r : Rat} (pos : 0 < r) :
    (10 : Rat) ^ (decade r - 1) ≤ r ∧ r < (10 : Rat) ^ decade r := by
  have ten : (0 : Rat) < 10 := by norm_num
  unfold decade
  split
  case isTrue large =>
    obtain ⟨low, high⟩ := digitCount_floor_spec large
    have digits := digitCount_pos r.floor.toNat
    rw [← zpow_natCast] at low high
    rw [Nat.cast_sub digits] at low
    exact ⟨low, high⟩
  case isFalse small =>
    have inverse : 1 ≤ r⁻¹ := (one_le_inv₀ pos).mpr (le_of_not_ge small)
    obtain ⟨low, high⟩ := digitCount_floor_spec inverse
    have digits := digitCount_pos r⁻¹.floor.toNat
    dsimp only
    generalize digitCount r⁻¹.floor.toNat = count at low high digits ⊢
    have above : r ≤ (10 : Rat) ^ (1 - (count : Int)) := by
      have flipped := inv_anti₀ (by positivity) low
      rw [inv_inv, ← zpow_natCast, ← zpow_neg, Nat.cast_sub digits] at flipped
      simpa using flipped
    have below : (10 : Rat) ^ (-(count : Int)) ≤ r := by
      have flipped := inv_anti₀ (by positivity) high.le
      rwa [inv_inv, ← zpow_natCast, ← zpow_neg] at flipped
    split
    case isTrue power =>
      have exact : r = (10 : Rat) ^ (1 - (count : Int)) := by
        rw [← inv_inv r, power, ← zpow_natCast, ← zpow_neg, Nat.cast_sub digits]
        simp
      rw [exact]
      exact ⟨zpow_le_zpow_right₀ (by norm_num) (by omega),
        zpow_lt_zpow_right₀ (by norm_num) (by omega)⟩
    case isFalse between =>
      refine ⟨by simpa using below, lt_of_le_of_ne above ?_⟩
      intro exact
      apply between
      rw [exact, ← zpow_neg, ← zpow_natCast, Nat.cast_sub digits]
      simp

namespace Double
variable {x : Double} {tie : Tie} {grid : Int}

/-! ### Grids -/

/-- Between numbers that are rounded to a double there are only such numbers. -/
theorem isRoundingOf_of_between {low high r : Rat} (rounds : x.isRoundingOf low)
    (rounds' : x.isRoundingOf high) (above : low ≤ r) (below : r ≤ high) : x.isRoundingOf r := by
  unfold isRoundingOf at *
  by_cases even : x.significand % 2 = 0
  · simp only [if_pos even, Bool.and_eq_true, decide_eq_true_eq] at *
    exact ⟨rounds.1.trans above, below.trans rounds'.2⟩
  · simp only [if_neg even, Bool.and_eq_true, decide_eq_true_eq] at *
    exact ⟨rounds.1.trans_le above, below.trans_lt rounds'.2⟩

/-- How many steps of a grid there are up to a double. -/
def stepsBelow (x : Double) (grid : Int) : Nat :=
  (x.magnitude / (10 : Rat) ^ grid).floor.toNat

theorem stepsBelow_spec (x : Double) (grid : Int) :
    x.stepsBelow grid * (10 : Rat) ^ grid ≤ x.magnitude ∧
      x.magnitude < (x.stepsBelow grid + 1 : Nat) * (10 : Rat) ^ grid := by
  have step : (0 : Rat) < (10 : Rat) ^ grid := by positivity
  obtain ⟨low, high⟩ := floor_toNat_spec (div_nonneg x.magnitude_nonneg step.le)
  push_cast
  exact ⟨(le_div_iff₀ step).mp low, (div_lt_iff₀ step).mp high⟩

theorem exists_onGrid_of_neighbour (tie : Tie)
    (rounds : x.isRoundingOf (x.stepsBelow grid * (10 : Rat) ^ grid) ∨
      x.isRoundingOf ((x.stepsBelow grid + 1 : Nat) * (10 : Rat) ^ grid)) :
    ∃ d, x.onGrid tie grid = some d := by
  unfold onGrid
  unfold stepsBelow at rounds
  dsimp only
  split
  case h_1 below above =>
    rw [below, above] at rounds
    simp at rounds
  case h_2 => exact ⟨_, rfl⟩
  case h_3 => exact ⟨_, rfl⟩
  case h_4 =>
    split
    · exact ⟨_, rfl⟩
    · split
      · exact ⟨_, rfl⟩
      · cases tie <;> exact ⟨_, rfl⟩

/-- Where any point of a grid is rounded to a double, one of those next to it is. -/
theorem exists_onGrid_of_point (nonzero : x.isZero = false) (tie : Tie) {steps : Nat}
    (rounds : x.isRoundingOf (steps * (10 : Rat) ^ grid)) : ∃ d, x.onGrid tie grid = some d := by
  have step : (0 : Rat) < (10 : Rat) ^ grid := by positivity
  have middle := isRoundingOf_magnitude nonzero
  obtain ⟨low, high⟩ := x.stepsBelow_spec grid
  apply exists_onGrid_of_neighbour
  rcases le_or_gt (steps * (10 : Rat) ^ grid) x.magnitude with below | above
  · have fewer : (steps : Rat) < (x.stepsBelow grid + 1 : Nat) :=
      lt_of_mul_lt_mul_right (below.trans_lt high) step.le
    have atMost : (steps : Rat) ≤ x.stepsBelow grid := by
      exact_mod_cast Nat.lt_succ_iff.mp (Nat.cast_lt.mp fewer)
    have above := mul_le_mul_of_nonneg_right atMost step.le
    exact .inl (isRoundingOf_of_between rounds middle above low)
  · have more : (x.stepsBelow grid : Rat) < steps :=
      lt_of_mul_lt_mul_right (low.trans_lt above) step.le
    have atLeast : ((x.stepsBelow grid + 1 : Nat) : Rat) ≤ steps := by
      exact_mod_cast Nat.succ_le_of_lt (Nat.cast_lt.mp more)
    exact .inr (isRoundingOf_of_between middle rounds high.le
      (mul_le_mul_of_nonneg_right atLeast step.le))

/-- The grid on which a double has so many digits. -/
def gridOf (x : Double) (digits : Nat) : Int :=
  decade x.magnitude - digits

/-- Counted in the steps of the grid, the double has so many digits. -/
theorem gridOf_spec (nonzero : x.isZero = false) (k : Nat) :
    (10 : Rat) ^ k * (10 : Rat) ^ x.gridOf (k + 1) ≤ x.magnitude ∧
      x.magnitude < (10 : Rat) ^ (k + 1) * (10 : Rat) ^ x.gridOf (k + 1) := by
  have power : ∀ n : Nat, (10 : Rat) ^ n * (10 : Rat) ^ x.gridOf (k + 1)
      = (10 : Rat) ^ (decade x.magnitude + n - (k + 1 : Nat)) := by
    intro n
    unfold gridOf
    rw [← zpow_natCast, ← zpow_add₀ (by norm_num)]
    congr 1
    ring
  have low : decade x.magnitude + k - (k + 1 : Nat) = decade x.magnitude - 1 := by omega
  have high : decade x.magnitude + (k + 1 : Nat) - (k + 1 : Nat) = decade x.magnitude := by omega
  rw [power, power, low, high]
  exact decade_spec (magnitude_pos_iff.mpr nonzero)

/-- A decimal of some digits that is rounded to a double shows that the grid of as many digits has a
point for it. If the decimal is not on the grid, it is below the power of ten below the double. -/
theorem exists_onGrid_of_decimal (nonzero : x.isZero = false) (tie : Tie) {d : Decimal} {k : Nat}
    (digits : d.digits < 10 ^ (k + 1)) (rounds : x.isRoundingOf d.value) :
    ∃ d, x.onGrid tie (x.gridOf (k + 1)) = some d := by
  have ten : (10 : Rat) ≠ 0 := by norm_num
  obtain ⟨low, -⟩ := gridOf_spec nonzero k
  rcases le_or_gt (x.gridOf (k + 1)) d.exponent with coarse | fine
  · obtain ⟨more, split⟩ : ∃ more : Nat, d.exponent = more + x.gridOf (k + 1) :=
      ⟨(d.exponent - x.gridOf (k + 1)).toNat, by omega⟩
    have onto : d.value = (d.digits * 10 ^ more : Nat) * (10 : Rat) ^ x.gridOf (k + 1) := by
      rw [Decimal.value, split, zpow_add₀ ten, zpow_natCast]
      push_cast
      ring
    rw [onto] at rounds
    exact exists_onGrid_of_point nonzero tie rounds
  · have most : (d.digits : Rat) ≤ (10 : Rat) ^ (k + 1) := by exact_mod_cast digits.le
    have under : d.value ≤ (10 : Rat) ^ k * (10 : Rat) ^ x.gridOf (k + 1) := by
      calc d.value ≤ (10 : Rat) ^ (k + 1) * (10 : Rat) ^ (x.gridOf (k + 1) - 1) :=
            mul_le_mul most (zpow_le_zpow_right₀ (by norm_num) (by omega)) (by positivity)
              (by positivity)
        _ = (10 : Rat) ^ k * (10 : Rat) ^ x.gridOf (k + 1) := by
            rw [zpow_sub_one₀ ten, pow_succ]
            field_simp
    have point : x.isRoundingOf ((10 ^ k : Nat) * (10 : Rat) ^ x.gridOf (k + 1)) := by
      push_cast
      exact isRoundingOf_of_between rounds (isRoundingOf_magnitude nonzero) under low
    exact exists_onGrid_of_point nonzero tie point

theorem isRoundingOf_of_inside (nonzero : x.isZero = false) {r : Rat}
    (low : x.magnitude - x.reachBelow * x.unit < r) (high : r < x.magnitude + x.unit / 2) :
    x.isRoundingOf r := by
  rw [isRoundingOf_iff nonzero]
  refine ⟨low.le, high.le, ?_⟩
  rintro (atLow | atHigh)
  · exact absurd atLow low.ne'
  · exact absurd atHigh high.ne

/-- The steps of the grid of seventeen digits are smaller than the interval of the double. -/
theorem step_lt_interval (nonzero : x.isZero = false) :
    (10 : Rat) ^ x.gridOf 17 < (x.reachBelow + 1 / 2) * x.unit := by
  have unit := x.unit_pos
  have small : (10 : Rat) ^ 16 * (10 : Rat) ^ x.gridOf 17 ≤ x.significand * x.unit :=
    (gridOf_spec nonzero 16).1
  cases narrow : x.isNarrowBelow with
  | true =>
      have reach : x.reachBelow = 1 / 4 := if_pos narrow
      have least : (x.significand : Rat) = 2 ^ 52 := by
        rw [(isNarrowBelow_iff.mp narrow).1]
        norm_num [fractionRange]
      rw [reach]
      rw [least] at small
      linarith
  | false =>
      have reach : x.reachBelow = 1 / 2 := if_neg (by simp [narrow])
      have most := x.significand_succ_le
      have units : (x.significand : Rat) * x.unit ≤ 2 ^ 53 * x.unit :=
        mul_le_mul_of_nonneg_right (by linarith) unit.le
      rw [reach]
      linarith

/-- So one of the points next to the double is rounded to it. -/
theorem exists_onGrid_seventeen (nonzero : x.isZero = false) (tie : Tie) :
    ∃ d, x.onGrid tie (x.gridOf 17) = some d := by
  obtain ⟨low, high⟩ := x.stepsBelow_spec (x.gridOf 17)
  have fine := step_lt_interval nonzero
  have unit := x.unit_pos
  have reach := mul_pos x.reachBelow_pos unit
  push_cast at high
  apply exists_onGrid_of_neighbour
  rcases lt_or_ge (x.magnitude - x.reachBelow * x.unit)
    (x.stepsBelow (x.gridOf 17) * (10 : Rat) ^ x.gridOf 17) with near | far
  · exact .inl (isRoundingOf_of_inside nonzero near (by linarith))
  · right
    push_cast
    exact isRoundingOf_of_inside nonzero (by linarith) (by linarith)

/-! ### The search -/

/-- What is found on a grid of some digits has no more of them. -/
theorem digits_le_of_onGrid {k : Nat} {d : Decimal} (nonzero : x.isZero = false)
    (found : x.onGrid tie (x.gridOf (k + 1)) = some d) : d.digits ≤ 10 ^ (k + 1) := by
  have step : (0 : Rat) < (10 : Rat) ^ x.gridOf (k + 1) := by positivity
  obtain ⟨low, -⟩ := x.stepsBelow_spec (x.gridOf (k + 1))
  have high := (gridOf_spec nonzero k).2
  have fewer : (x.stepsBelow (x.gridOf (k + 1)) : Rat) < (10 ^ (k + 1) : Nat) := by
    push_cast
    exact lt_of_mul_lt_mul_right (low.trans_lt high) step.le
  have steps : x.stepsBelow (x.gridOf (k + 1)) < 10 ^ (k + 1) := Nat.cast_lt.mp fewer
  obtain ⟨-, rfl | rfl⟩ := neighbour_of_onGrid found
  · exact steps.le
  · exact steps

end Double

/-- A search among numbers stops no later than at one that is good. -/
theorem findSome?_range_of_some {α : Type} {f : Nat → Option α} {n bound : Nat} {a : α}
    (inside : n < bound) (good : f n = some a) :
    ∃ m ≤ n, ∃ b, f m = some b ∧ (List.range bound).findSome? f = some b := by
  obtain ⟨more, rfl⟩ : ∃ more, bound = n + 1 + more := ⟨bound - (n + 1), by omega⟩
  have hit : ((List.range (n + 1)).findSome? f).isSome := by
    rw [List.findSome?_isSome_iff]
    exact ⟨n, List.mem_range.mpr (Nat.lt_succ_self n), by rw [good]; rfl⟩
  obtain ⟨b, first⟩ := Option.isSome_iff_exists.mp hit
  obtain ⟨m, mem, found⟩ := List.exists_of_findSome?_eq_some first
  refine ⟨m, Nat.lt_succ_iff.mp (List.mem_range.mp mem), b, found, ?_⟩
  rw [List.range_add, List.findSome?_append, first]
  rfl

namespace Double
variable {x : Double} {tie : Tie}

/-- A grid of at most seventeen digits with a point for the double bounds the digits of the shortest
decimal. -/
theorem digits_shortest_lt (nonzero : x.isZero = false) {k : Nat} (inside : k < 17) {d : Decimal}
    (found : x.onGrid tie (x.gridOf (k + 1)) = some d) :
    (x.shortest tie).digits < 10 ^ (k + 1) := by
  obtain ⟨m, earlier, first, hit, search⟩ := findSome?_range_of_some
    (f := fun n : Nat => x.onGrid tie (decade x.magnitude - (n + 1 : Nat))) inside found
  have digits := digits_le_of_onGrid nonzero (k := m) hit
  unfold shortest
  simp only [search, Option.getD_some]
  calc first.normalize.digits < 10 ^ (m + 1) := Decimal.digits_normalize_lt (Nat.succ_pos m) digits
    _ ≤ 10 ^ (k + 1) := Nat.pow_le_pow_right (by decide) (by omega)

/-- No decimal that is rounded to a double has fewer digits than the shortest one. -/
theorem digitCount_shortest_le (nonzero : x.isZero = false) (tie : Tie) {d : Decimal}
    (rounds : x.isRoundingOf d.value) :
    digitCount (x.shortest tie).digits ≤ digitCount d.digits := by
  obtain ⟨k, count⟩ := Nat.exists_eq_succ_of_ne_zero (digitCount_pos d.digits).ne'
  have size := lt_pow_digitCount d.digits
  rw [count] at size ⊢
  have few : (x.shortest tie).digits < 10 ^ (k + 1) := by
    rcases Nat.lt_or_ge k 17 with inside | many
    · obtain ⟨found, hit⟩ := exists_onGrid_of_decimal nonzero tie size rounds
      exact digits_shortest_lt nonzero inside hit
    · obtain ⟨found, hit⟩ := exists_onGrid_seventeen nonzero tie
      calc (x.shortest tie).digits < 10 ^ (16 + 1) := digits_shortest_lt nonzero (by decide) hit
        _ ≤ 10 ^ (k + 1) := Nat.pow_le_pow_right (by decide) (by omega)
  exact (Nat.length_toDigits_le_iff (by decide) (Nat.succ_pos k)).mpr few

end Double

end CircuitNetlist
