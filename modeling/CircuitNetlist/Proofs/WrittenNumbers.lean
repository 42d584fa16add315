import CircuitNetlist.Proofs.NearestDoubles
import CircuitNetlist.Proofs.NumeralTexts

/-!
# Numbers as they are written

A finite double stands for a rational number with a sign, and comparing it with zero is comparing
that number. Whatever the layout, the text of a finite double is the text of a number, and the
double that is nearest to this number is the one that was written.
-/
namespace CircuitNetlist

namespace Double
variable {x : Double}

/-- The number that a finite double stands for. -/
def value (x : Double) : Rat :=
  if x.isNegative then -x.magnitude else x.magnitude

theorem magnitude_pos_iff : 0 < x.magnitude ↔ x.isZero = false := by
  have unit : (0 : Rat) < (2 : Rat) ^ x.exponent := by positivity
  have factor : 0 < x.magnitude ↔ 0 < x.significand := by
    rw [magnitude, mul_pos_iff_of_pos_right unit, Nat.cast_pos]
  rw [factor]
  constructor
  · intro positive
    unfold significand at positive
    rw [isZero, Bool.and_eq_false_iff]
    by_cases subnormal : x.biasedExponent = 0
    · rw [if_pos subnormal] at positive
      exact .inr (beq_false_of_ne positive.ne')
    · exact .inl (beq_false_of_ne subnormal)
  · exact significand_pos

theorem magnitude_nonneg (x : Double) : 0 ≤ x.magnitude := by
  unfold magnitude
  positivity

theorem isNaN_of_finite (finite : x.isFinite) : x.isNaN = false := by
  have exponent : (x.biasedExponent == 2047) = false := by simpa [isFinite] using finite
  rw [isNaN, exponent]
  rfl

/-- The comparison with zero is that of the numbers. -/
theorem value_pos_iff (finite : x.isFinite) : 0 < x.value ↔ x.atMostZero = false := by
  unfold value atMostZero
  rw [isNaN_of_finite finite, Bool.not_false, Bool.true_and, Bool.or_eq_false_iff,
    ← magnitude_pos_iff]
  cases negative : x.isNegative with
  | false => simp
  | true =>
      have below := x.magnitude_nonneg
      simp only [↓reduceIte, Bool.true_eq_false, false_and, iff_false, not_lt]
      linarith

/-- The magnitude of a finite double is written as a numeral, and a decimal of the numeral's value
is read as the double. -/
theorem exists_parts_magnitude (layout : Layout) (finite : x.isFinite) :
    ∃ parts : NumeralParts, parts.IsFractional ∧ layout.magnitude x = layout.text parts ∧
      ∀ d : Decimal, d.value = parts.decimal.value → ofDecimal x.isNegative d = x := by
  rw [Layout.magnitude]
  by_cases zero : x.isZero
  · refine ⟨⟨['0'], ['0'], none⟩, by constructor <;> simp [Json.validWhole], ?_, ?_⟩
    · rw [if_pos zero]
      rfl
    · intro d same
      have nothing : (NumeralParts.decimal ⟨['0'], ['0'], none⟩).value = 0 := by decide +kernel
      have digits : d.digits = 0 := by
        rw [nothing, Decimal.value, mul_eq_zero] at same
        exact_mod_cast same.resolve_right (zpow_ne_zero _ (by norm_num))
      rw [ofDecimal, if_pos digits]
      exact ofDecimal_zero zero
  · have nonzero : x.isZero = false := Bool.eq_false_iff.mpr zero
    have rounds := isRoundingOf_shortest nonzero layout.tie
    have digits := (leadingExponent_of_isRoundingOf finite nonzero rounds).1
    obtain ⟨parts, written, fractional, denotes⟩ := layout.exists_parts digits
    refine ⟨parts, fractional, by rw [if_neg zero, written], ?_⟩
    intro d same
    apply ofDecimal_eq finite nonzero
    rw [same, ← Decimal.value_normalize, denotes, Decimal.value_normalize]
    exact rounds

theorem toList_render (layout : Layout) (finite : x.isFinite) :
    (layout.render x).toList = (if x.isNegative then ['-'] else []) ++ layout.magnitude x := by
  simp [Layout.render, isNaN_of_finite finite, finite]

/-- The text is that of a number, and is read as this double. -/
def ReadFrom (x : Double) (text : String) : Prop :=
  ∃ n : Numeral, Json.readNumber text.toList = some (⟨n, false⟩, []) ∧
    ofDecimal n.negative n.decimal = x

/-- Whatever its layout, the text of a finite double is read as the double. -/
theorem readFrom_render (layout : Layout) (finite : x.isFinite) :
    x.ReadFrom (layout.render x) := by
  obtain ⟨parts, fractional, written, denotes⟩ := exists_parts_magnitude layout finite
  have text : (layout.render x).toList
      = (if x.isNegative then ['-'] else []) ++ (layout.text parts ++ []) := by
    rw [toList_render layout finite, written, List.append_nil]
  unfold ReadFrom
  rw [text]
  exact ⟨_, Json.readNumber_text layout fractional x.isNegative Json.noNumeralAhead_nil,
    denotes _ (Decimal.value_normalize _)⟩

end Double

end CircuitNetlist
