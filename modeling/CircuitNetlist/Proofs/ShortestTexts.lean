import CircuitNetlist.Proofs.NumberSpellings
import CircuitNetlist.Proofs.ShortestDecimals
import Mathlib.Data.List.DropRight

/-!
# Texts of doubles are shortest

The significant digits of a numeral are those of its value in normal form, however many zeros stand
around them. So a numeral that is rounded to a double has no fewer of them than the shortest
decimal, and the text of the double, which has a point or an exponent in either notation, has
exactly as many.
-/
namespace CircuitNetlist

/-! ### Significant digits -/

/-- The digits from the first to the last that is not a zero. -/
def significantDigits (digits : List Char) : List Char :=
  (digits.dropWhile (· == '0')).rdropWhile (· == '0')

theorem exists_replicate_of_zeros {digits : List Char} (zeros : ∀ c ∈ digits, (c == '0') = true) :
    ∃ k, digits = List.replicate k '0' :=
  ⟨_, List.eq_replicate_of_mem fun c mem => beq_iff_eq.mp (zeros c mem)⟩

/-- The significant digits stand between zeros. -/
theorem significantDigits_split (digits : List Char) : ∃ zeros more, digits
    = List.replicate zeros '0' ++ (significantDigits digits ++ List.replicate more '0') := by
  obtain ⟨zeros, front⟩ :=
    exists_replicate_of_zeros (List.all_eq_true.mp (digits.all_takeWhile (p := (· == '0'))))
  obtain ⟨more, back⟩ := exists_replicate_of_zeros (fun c mem =>
    List.mem_rtakeWhile_imp (l := digits.dropWhile (· == '0')) (p := (· == '0')) mem)
  refine ⟨zeros, more, ?_⟩
  rw [← front, ← back, significantDigits, List.rdropWhile_append_rtakeWhile,
    List.takeWhile_append_dropWhile]

/-- They start with no zero. -/
theorem significantDigits_first {digits cs : List Char} {c : Char}
    (first : significantDigits digits = c :: cs) : c ≠ '0' := by
  obtain ⟨more, split⟩ : significantDigits digits <+: digits.dropWhile (· == '0') :=
    List.rdropWhile_prefix _ _
  have stops := List.head?_dropWhile_not (· == '0') digits
  rw [← split, first] at stops
  simpa using stops

/-- They end with no zero. -/
theorem significantDigits_last {digits cs : List Char} {c : Char}
    (last : significantDigits digits = cs ++ [c]) : c ≠ '0' := by
  have stops := List.rdropWhile_last_not (· == '0') (digits.dropWhile (· == '0'))
  unfold significantDigits at last
  simpa [last] using stops

theorem digitsValue_concat (digits : List Char) (c : Char) :
    digitsValue (digits ++ [c]) = digitsValue digits * 10 + (c.toNat - 48) := by
  unfold digitsValue
  rw [Nat.ofDigitChars_append, Nat.mul_comm]
  rfl

theorem digit_value_lt {c : Char} (digit : c.isDigit) : c.toNat - 48 < 10 := by
  have most : c.toNat ≤ 57 := (Char.isDigit_iff_toNat.mp digit).2
  omega

theorem digit_value_ne_zero {c : Char} (digit : c.isDigit) (other : c ≠ '0') :
    c.toNat - 48 ≠ 0 := by
  have least : 48 ≤ c.toNat := (Char.isDigit_iff_toNat.mp digit).1
  intro none
  apply other
  rw [← Char.ofNat_toNat c, show c.toNat = 48 by omega]

theorem digitCount_concat {n digit : Nat} (nonzero : n ≠ 0) (single : digit < 10) :
    digitCount (n * 10 + digit) = digitCount n + 1 := by
  have front : (n * 10 + digit) / 10 = n := by omega
  unfold digitCount
  rw [Nat.toDigits_of_base_le (by decide) (by omega), front, List.length_append,
    List.length_singleton]

/-- The value of digits that start with no zero has as many digits. -/
theorem digitCount_digitsValue {c : Char} {cs : List Char} (digit : c.isDigit) (first : c ≠ '0')
    (all : ∀ d ∈ cs, d.isDigit) :
    digitsValue (c :: cs) ≠ 0 ∧ digitCount (digitsValue (c :: cs)) = cs.length + 1 := by
  induction cs using List.reverseRecOn with
  | nil =>
      have value : digitsValue [c] = c.toNat - 48 := by
        simpa [digitsValue] using digitsValue_concat [] c
      rw [value]
      refine ⟨digit_value_ne_zero digit first, ?_⟩
      rw [digitCount, Nat.toDigits_of_lt_base (digit_value_lt digit)]
      rfl
  | append_singleton cs d ih =>
      obtain ⟨front, single⟩ := List.forall_mem_append.mp all
      obtain ⟨nonzero, count⟩ := ih front
      have last := digit_value_lt (single d List.mem_cons_self)
      rw [← List.cons_append, digitsValue_concat]
      refine ⟨by omega, ?_⟩
      rw [digitCount_concat nonzero last, count, List.length_append, List.length_singleton]

/-- A number in normal form is written with the significant digits. -/
theorem length_significantDigits {digits : List Char} (all : ∀ c ∈ digits, c.isDigit)
    (nonzero : digitsValue digits ≠ 0) (e : Int) :
    (significantDigits digits).length
      = digitCount (Decimal.mk (digitsValue digits) e).normalize.digits := by
  obtain ⟨zeros, more, split⟩ := significantDigits_split digits
  have value : digitsValue digits = digitsValue (significantDigits digits) * 10 ^ more := by
    conv_lhs => rw [split, digitsValue_zeros_append, digitsValue_append_zeros]
  have middle : ∀ c ∈ significantDigits digits, c.isDigit := by
    intro c mem
    apply all
    rw [split]
    exact List.mem_append_right _ (List.mem_append_left _ mem)
  have some_digit : significantDigits digits ≠ [] := by
    intro none
    rw [none] at value
    exact nonzero (value.trans (Nat.zero_mul _))
  have count : digitCount (digitsValue (significantDigits digits))
      = (significantDigits digits).length := by
    obtain ⟨c, cs, first⟩ := List.exists_cons_of_ne_nil some_digit
    rw [first, List.forall_mem_cons] at middle
    rw [first, List.length_cons]
    exact (digitCount_digitsValue middle.1 (significantDigits_first first) middle.2).2
  have last : digitsValue (significantDigits digits) % 10 ≠ 0 := by
    obtain ⟨cs, c, last⟩ := (List.eq_nil_or_concat' _).resolve_left some_digit
    rw [last, List.forall_mem_append] at middle
    have digit := middle.2 c List.mem_cons_self
    have few := digit_value_lt digit
    have some_value := digit_value_ne_zero digit (significantDigits_last last)
    rw [last, digitsValue_concat]
    omega
  have present : digitsValue (significantDigits digits) ≠ 0 := by
    intro none
    rw [none] at last
    contradiction
  rw [value, Decimal.normalize_mul_pow present, Decimal.normalize_of_no_trailing_zero last, count]

namespace NumeralSpelling
variable {p : NumeralSpelling}

/-- How many digits of a numeral are significant. -/
def precision (p : NumeralSpelling) : Nat :=
  (significantDigits (p.whole ++ p.places.getD [])).length

theorem IsNumeral.precision_eq (numeral : p.IsNumeral) (nonzero : p.numeral.decimal.digits ≠ 0) :
    p.precision = digitCount p.numeral.decimal.normalize.digits :=
  length_significantDigits (List.forall_mem_append.mpr ⟨numeral.whole, numeral.places⟩) nonzero _

/-- No numeral that is rounded to a double has fewer digits than the shortest decimal. -/
theorem IsNumeral.digitCount_le_precision {x : Double} (numeral : p.IsNumeral)
    (nonzero : x.isZero = false) (rounds : p.numeral.RoundsTo x) (tie : Tie) :
    digitCount (x.shortest tie).digits ≤ p.precision := by
  have finite := rounds.nearest.finite
  have inside := ((Numeral.roundsTo_iff finite nonzero).mp rounds).2
  rw [numeral.precision_eq (Double.leadingExponent_of_isRoundingOf finite nonzero inside).1]
  apply Double.digitCount_shortest_le nonzero tie
  rwa [Decimal.value_normalize]

end NumeralSpelling

/-! ### Texts -/

namespace Layout
variable {layout : Layout} {parts : NumeralParts}

/-- A number that is not integral has a point or an exponent. -/
theorem mark_mem_text (fractional : parts.IsFractional) :
    '.' ∈ layout.text parts ∨ 'e' ∈ layout.text parts := by
  unfold text
  obtain places | exponent := fractional.marked
  · left
    obtain ⟨c, cs, split⟩ := List.exists_cons_of_ne_nil places
    simp [split, fractionText]
  · right
    obtain ⟨e, given⟩ := Option.isSome_iff_exists.mp exponent
    simp [given, suffixText]

/-- The magnitude of a finite double is written as a numeral that is rounded to the double, and none
that is has fewer significant digits. -/
theorem exists_parts_shortest (layout : Layout) {x : Double} (finite : x.isFinite) :
    ∃ parts : NumeralParts, parts.IsFractional ∧ layout.magnitude x = layout.text parts ∧
      (⟨x.isNegative, parts.decimal⟩ : Numeral).RoundsTo x ∧
      ∀ q : NumeralSpelling, q.IsNumeral → q.numeral.RoundsTo x →
        (NumeralSpelling.ofParts layout x.isNegative parts).precision ≤ q.precision := by
  rw [magnitude]
  by_cases zero : x.isZero
  · have value : (⟨x.isNegative, ⟨0, -1⟩⟩ : Numeral).value = 0 := by
      simp [Numeral.value, Decimal.value]
    have near := Double.isNearest_of_isZero zero
    rw [← value] at near
    refine ⟨⟨['0'], ['0'], none⟩, by constructor <;> simp [Json.validWhole], ?_, ⟨rfl, near⟩, ?_⟩
    · rw [if_pos zero]
      rfl
    · exact fun q _ _ => Nat.zero_le _
  · have nonzero : x.isZero = false := Bool.eq_false_iff.mpr zero
    have rounds := Double.isRoundingOf_shortest nonzero layout.tie
    have digits := (Double.leadingExponent_of_isRoundingOf finite nonzero rounds).1
    obtain ⟨parts, written, fractional, denotes⟩ := layout.exists_parts digits
    rw [← Decimal.value_normalize, ← denotes, Decimal.value_normalize] at rounds
    have numeral : (NumeralSpelling.ofParts layout x.isNegative parts).IsNumeral :=
      NumeralSpelling.isNumeral_ofParts fractional
    have denoted : (NumeralSpelling.ofParts layout x.isNegative parts).numeral
        = ⟨x.isNegative, parts.decimal⟩ := NumeralSpelling.numeral_ofParts
    have some_digit := (Double.leadingExponent_of_isRoundingOf finite nonzero rounds).1
    have precision : (NumeralSpelling.ofParts layout x.isNegative parts).precision
        = digitCount (x.shortest layout.tie).digits := by
      have normal : (x.shortest layout.tie).normalize = x.shortest layout.tie :=
        Decimal.normalize_normalize _
      rw [numeral.precision_eq (by rwa [denoted]), denoted, denotes, normal]
    refine ⟨parts, fractional, by rw [if_neg zero, written],
      (Numeral.roundsTo_iff finite nonzero).mpr ⟨rfl, rounds⟩, ?_⟩
    intro q other rounds'
    rw [precision]
    exact other.digitCount_le_precision nonzero rounds' layout.tie

end Layout

theorem not_mark_of_mem_int {i : Int} {c : Char} (mem : c ∈ (toString i).toList) :
    c ≠ '.' ∧ c ≠ 'e' := by
  rw [toList_toString_int] at mem
  obtain sign | digit := List.mem_append.mp mem
  · have minus : c = '-' := by
      split at sign
      · exact List.mem_singleton.mp sign
      · contradiction
    rw [minus]
    decide
  · have digit' := isDigit_of_mem_toDigits digit
    exact ⟨Json.isDigit_ne digit' (by decide), Json.isDigit_ne digit' (by decide)⟩

/-- The text of a finite double is a numeral that is rounded to this very double, its sign included,
and to no other, and no numeral that is has fewer significant digits. It has a point or an exponent,
so it is not the text of an integer. -/
theorem double_text_shortest {x : Double} (finite : x.isFinite) :
    ∃ p : NumeralSpelling, p.IsNumeral ∧ p.text = x.text.toList ∧
      (∀ y : Double, p.numeral.RoundsTo y ↔ y = x) ∧
      (∀ q : NumeralSpelling, q.IsNumeral → q.numeral.RoundsTo x → p.precision ≤ q.precision) ∧
      ('.' ∈ x.text.toList ∨ 'e' ∈ x.text.toList) ∧
      ∀ i : Int, x.text ≠ toString i := by
  obtain ⟨parts, fractional, written, rounds, shortest⟩ :=
    netlistLayout.exists_parts_shortest finite
  have text : x.text.toList = (if x.isNegative then ['-'] else []) ++ netlistLayout.text parts := by
    rw [Double.text, Double.toList_render netlistLayout finite, written]
  have marked : '.' ∈ x.text.toList ∨ 'e' ∈ x.text.toList := by
    rw [text]
    exact (Layout.mark_mem_text fractional).imp (List.mem_append_right _) (List.mem_append_right _)
  refine ⟨.ofParts netlistLayout x.isNegative parts, NumeralSpelling.isNumeral_ofParts fractional,
    ?_, ?_, shortest, marked, ?_⟩
  · rw [NumeralSpelling.text_ofParts, text]
  · intro y
    rw [NumeralSpelling.numeral_ofParts]
    constructor
    · exact fun rounds' => rounds'.unique rounds
    · rintro rfl
      exact rounds
  · intro i same
    rw [same] at marked
    obtain point | letter := marked
    · exact (not_mark_of_mem_int point).1 rfl
    · exact (not_mark_of_mem_int letter).2 rfl

/-- The least positive double. -/
def leastDouble : Double := ⟨1⟩

/-- One digit is enough for it, although its value has several hundred. -/
theorem double_text_shortest_least :
    leastDouble.text = "5e-324" ∧
      ∃ p : NumeralSpelling, p.IsNumeral ∧ p.text = "5e-324".toList ∧
        p.numeral.RoundsTo leastDouble ∧
        ∀ q : NumeralSpelling, q.IsNumeral → q.numeral.RoundsTo leastDouble →
          p.precision ≤ q.precision := by
  have text : leastDouble.text = "5e-324" := by decide +kernel
  obtain ⟨p, numeral, written, rounds, shortest, -, -⟩ :=
    double_text_shortest (x := leastDouble) (by decide)
  rw [text] at written
  exact ⟨text, p, numeral, written, (rounds leastDouble).mpr rfl, shortest⟩

end CircuitNetlist
