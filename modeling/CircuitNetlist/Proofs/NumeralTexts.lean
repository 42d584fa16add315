import CircuitNetlist.Json.Reader
import CircuitNetlist.Json.Writer
import CircuitNetlist.Proofs.Decimals
import Mathlib.Tactic.Linarith

/-!
# Numbers read back

The text of a decimal, in whichever layout, consists of whole digits, digits behind a point and an
exponent, and these denote the decimal. The reader of numbers takes the parts off one after the
other, so a number that is canonical is read back from its text, whatever follows that cannot go on
a number.
-/
namespace CircuitNetlist

/-! ### Digits -/

theorem digitsValue_toDigits (n : Nat) : digitsValue (Nat.toDigits 10 n) = n :=
  Nat.ofDigitChars_toDigits (by decide) (by decide)

theorem isDigit_of_mem_toDigits {n : Nat} {c : Char} (digit : c ∈ Nat.toDigits 10 n) : c.isDigit :=
  Nat.isDigit_of_mem_toDigits (by decide) (by decide) digit

/-- The digits of a number other than zero do not start with a zero. -/
theorem exists_toDigits_cons {n : Nat} (nonzero : n ≠ 0) :
    ∃ c cs, Nat.toDigits 10 n = c :: cs ∧ c ≠ '0' := by
  induction n using Nat.strongRecOn with
  | ind n ih =>
    rcases Nat.lt_or_ge n 10 with single | several
    · refine ⟨n.digitChar, [], Nat.toDigits_of_lt_base single, ?_⟩
      intro zero
      have value := Nat.toNat_digitChar_sub_48_of_lt_ten single
      rw [zero] at value
      exact nonzero value.symm
    · obtain ⟨c, cs, digits, first⟩ := ih (n / 10) (by omega) (by omega)
      refine ⟨c, cs ++ [(n % 10).digitChar], ?_, first⟩
      rw [Nat.toDigits_of_base_le (by decide) several, digits]
      rfl

theorem digitsValue_append_zeros (digits : List Char) (k : Nat) :
    digitsValue (digits ++ List.replicate k '0') = digitsValue digits * 10 ^ k := by
  unfold digitsValue
  rw [Nat.ofDigitChars_append, Nat.ofDigitChars_replicate_zero, Nat.mul_comm]

theorem digitsValue_zeros_append (k : Nat) (digits : List Char) :
    digitsValue (List.replicate k '0' ++ digits) = digitsValue digits := by
  unfold digitsValue
  rw [Nat.ofDigitChars_append, Nat.ofDigitChars_replicate_zero, Nat.mul_zero]

theorem validWhole_cons {c : Char} (first : c ≠ '0') (cs : List Char) :
    Json.validWhole (c :: cs) := by
  unfold Json.validWhole
  split <;> simp_all

theorem exists_cons_of_validWhole {whole : List Char} (valid : Json.validWhole whole) :
    ∃ c cs, whole = c :: cs := by
  cases whole with
  | nil => simp [Json.validWhole] at valid
  | cons c cs => exact ⟨c, cs, rfl⟩

/-- The text does not start with a digit. -/
def NoDigitAhead (rest : List Char) : Prop :=
  ∀ c ∈ rest.head?, c.isDigit = false

theorem splitDigits_append {digits rest : List Char} (all : ∀ c ∈ digits, c.isDigit)
    (ahead : NoDigitAhead rest) : splitDigits (digits ++ rest) = (digits, rest) := by
  have stops : rest.takeWhile Char.isDigit = [] ∧ rest.dropWhile Char.isDigit = rest := by
    cases rest with
    | nil => exact ⟨rfl, rfl⟩
    | cons c cs => simp [ahead c rfl]
  unfold splitDigits
  rw [List.takeWhile_append_of_pos all, List.dropWhile_append_of_pos all, stops.1, stops.2,
    List.append_nil]

/-! ### The parts of a numeral -/

/-- The digits before the point, those behind it, and the exponent if there is one. -/
structure NumeralParts where
  whole : List Char
  places : List Char
  exponent : Option Int

namespace NumeralParts

def decimal (p : NumeralParts) : Decimal :=
  ⟨digitsValue (p.whole ++ p.places), p.exponent.getD 0 - p.places.length⟩

/-- The parts are those of a number that is not integral. -/
structure IsFractional (p : NumeralParts) : Prop where
  whole_digits : ∀ c ∈ p.whole, c.isDigit
  whole_valid : Json.validWhole p.whole
  places_digits : ∀ c ∈ p.places, c.isDigit
  marked : p.places ≠ [] ∨ p.exponent.isSome

end NumeralParts

namespace Layout

def fractionText (places : List Char) : List Char :=
  if places.isEmpty then [] else '.' :: places

def suffixText (layout : Layout) : Option Int → List Char
  | none => []
  | some e => 'e' :: layout.exponentText e

/-- The text of a numeral with these parts. -/
def text (layout : Layout) (p : NumeralParts) : List Char :=
  p.whole ++ (fractionText p.places ++ layout.suffixText p.exponent)

/-- Large numbers have zeros behind their digits, and one more behind the point. -/
theorem exists_parts_large (layout : Layout) {n : Nat} (nonzero : n ≠ 0) {e : Int} (large : 0 ≤ e) :
    ∃ p : NumeralParts,
      Nat.toDigits 10 n ++ List.replicate e.toNat '0' ++ ['.', '0'] = layout.text p
        ∧ p.IsFractional ∧ p.decimal.normalize = (Decimal.mk n e).normalize := by
  obtain ⟨c, cs, digits, first⟩ := exists_toDigits_cons nonzero
  refine ⟨⟨Nat.toDigits 10 n ++ List.replicate e.toNat '0', ['0'], none⟩, ?_, ?_, ?_⟩
  · simp [text, fractionText, suffixText]
  · constructor
    case whole_digits =>
      intro d found
      rcases List.mem_append.mp found with digit | zero
      · exact isDigit_of_mem_toDigits digit
      · rw [List.eq_of_mem_replicate zero]
        rfl
    case whole_valid =>
      rw [digits, List.cons_append]
      exact validWhole_cons first _
    case places_digits => simp
    case marked => simp
  · have zeros : digitsValue (Nat.toDigits 10 n ++ List.replicate e.toNat '0' ++ ['0'])
        = n * 10 ^ (e.toNat + 1) := by
      rw [List.append_assoc, ← List.replicate_succ', digitsValue_append_zeros,
        digitsValue_toDigits]
    have exponent : (0 : Int) - (['0'] : List Char).length + (e.toNat + 1 : Nat) = e := by
      simp only [List.length_singleton]
      omega
    unfold NumeralParts.decimal
    rw [zeros, Option.getD_none, Decimal.normalize_mul_pow nonzero, exponent]

/-- Small numbers have zeros before their digits, as many as it takes to have one before the
point. -/
theorem exists_parts_small (layout : Layout) {n : Nat} (nonzero : n ≠ 0) {places : Nat}
    (small : 0 < places) {padded : List Char} (padding : padded
      = List.replicate (places + 1 - (Nat.toDigits 10 n).length) '0' ++ Nat.toDigits 10 n) :
    ∃ p : NumeralParts,
      padded.take (padded.length - places) ++ '.' :: padded.drop (padded.length - places)
          = layout.text p
        ∧ p.IsFractional ∧ p.decimal = ⟨n, -places⟩ := by
  obtain ⟨c, cs, digits, first⟩ := exists_toDigits_cons nonzero
  have all : ∀ d ∈ padded, d.isDigit := by
    intro d found
    rw [padding] at found
    rcases List.mem_append.mp found with zero | digit
    · rw [List.eq_of_mem_replicate zero]
      rfl
    · exact isDigit_of_mem_toDigits digit
  have size : places < padded.length := by
    rw [padding, List.length_append, List.length_replicate]
    omega
  have behind : (padded.drop (padded.length - places)).length = places := by
    rw [List.length_drop]
    omega
  have some_behind : padded.drop (padded.length - places) ≠ [] := by
    intro none_behind
    simp only [none_behind, List.length_nil] at behind
    omega
  refine ⟨⟨padded.take (padded.length - places), padded.drop (padded.length - places), none⟩,
    ?_, ?_, ?_⟩
  · simp [text, fractionText, suffixText, some_behind]
  · constructor
    case whole_digits => exact fun d found => all d (List.mem_of_mem_take found)
    case whole_valid =>
      rcases Nat.lt_or_ge places (Nat.toDigits 10 n).length with long | short
      · -- no zeros are added, and the digits do not start with one
        obtain ⟨before, more⟩ : ∃ k, padded.length - places = k + 1 :=
          Nat.exists_eq_succ_of_ne_zero (by omega)
        have unpadded : padded = c :: cs := by
          rw [padding, Nat.sub_eq_zero_of_le (by omega), digits]
          rfl
        rw [more, unpadded, List.take_succ_cons]
        exact validWhole_cons first _
      · -- the whole digits are one zero
        obtain ⟨zeros, more⟩ : ∃ k, places + 1 - (Nat.toDigits 10 n).length = k + 1 :=
          Nat.exists_eq_succ_of_ne_zero (by omega)
        have one : padded.length - places = 1 := by
          rw [padding, List.length_append, List.length_replicate]
          omega
        rw [one, padding, more, List.replicate_succ]
        rfl
    case places_digits => exact fun d found => all d (List.mem_of_mem_drop found)
    case marked => exact .inl some_behind
  · unfold NumeralParts.decimal
    simp only [List.take_append_drop, behind, Option.getD_none, zero_sub]
    rw [padding, digitsValue_zeros_append, digitsValue_toDigits]

theorem exists_parts_plain (layout : Layout) {n : Nat} (nonzero : n ≠ 0) (e : Int) :
    ∃ p : NumeralParts, plain (Nat.toDigits 10 n) e = layout.text p ∧ p.IsFractional
      ∧ p.decimal.normalize = (Decimal.mk n e).normalize := by
  unfold plain
  split
  case isTrue large => exact exists_parts_large layout nonzero large
  case isFalse small =>
    obtain ⟨p, text, fractional, value⟩ :=
      @exists_parts_small layout n nonzero (-e).toNat (by omega) _ rfl
    have exponent : -((-e).toNat : Int) = e := by omega
    exact ⟨p, text, fractional, by rw [value, exponent]⟩

theorem exists_parts_scientific (layout : Layout) {n : Nat} (nonzero : n ≠ 0) (e : Int) :
    ∃ p : NumeralParts,
      layout.scientific (Nat.toDigits 10 n) (Decimal.mk n e).leadingExponent = layout.text p
        ∧ p.IsFractional ∧ p.decimal = ⟨n, e⟩ := by
  obtain ⟨c, cs, digits, first⟩ := exists_toDigits_cons nonzero
  have all : ∀ d ∈ c :: cs, d.isDigit := by
    rw [← digits]
    exact fun _ => isDigit_of_mem_toDigits
  refine ⟨⟨[c], cs, some (Decimal.mk n e).leadingExponent⟩, ?_, ?_, ?_⟩
  · simp [scientific, digits, text, fractionText, suffixText]
  · constructor
    case whole_digits => simpa using all c
    case whole_valid => exact validWhole_cons first _
    case places_digits => exact fun d found => all d (List.mem_cons_of_mem c found)
    case marked => exact .inr rfl
  · have value : digitsValue ([c] ++ cs) = n := by
      rw [List.singleton_append, ← digits, digitsValue_toDigits]
    have count : digitCount n = cs.length + 1 := by
      rw [digitCount, digits, List.length_cons]
    unfold NumeralParts.decimal Decimal.leadingExponent
    simp only [value, count, Option.getD_some]
    congr 1
    omega

/-- Every layout writes a decimal as a numeral that denotes it. -/
theorem exists_parts (layout : Layout) {d : Decimal} (nonzero : d.digits ≠ 0) :
    ∃ p : NumeralParts, layout.decimal d = layout.text p ∧ p.IsFractional
      ∧ p.decimal.normalize = d.normalize := by
  unfold decimal
  dsimp only
  split
  · exact exists_parts_plain layout nonzero d.exponent
  · obtain ⟨p, text, fractional, value⟩ := exists_parts_scientific layout nonzero d.exponent
    exact ⟨p, text, fractional, by rw [value]⟩

end Layout

namespace Json

/-! ### Reading the parts -/

/-- The text cannot go on a number. -/
def NoNumeralAhead (rest : List Char) : Prop :=
  ∀ c ∈ rest.head?, c.isDigit = false ∧ c ≠ '.' ∧ c ≠ 'e' ∧ c ≠ 'E'

theorem noNumeralAhead_nil : NoNumeralAhead [] := by
  simp [NoNumeralAhead]

theorem NoNumeralAhead.noDigitAhead {rest : List Char} (ahead : NoNumeralAhead rest) :
    NoDigitAhead rest :=
  fun c first => (ahead c first).1

theorem readExponent_of_none {rest : List Char} (ahead : NoNumeralAhead rest) :
    readExponent rest = some (none, rest) := by
  cases rest with
  | nil => rfl
  | cons c cs =>
    obtain ⟨-, -, small, capital⟩ := ahead c rfl
    simp [readExponent, small, capital]

theorem isDigit_ne {c d : Char} (digit : c.isDigit) (other : d.isDigit = false) : c ≠ d := by
  rintro rfl
  rw [digit] at other
  contradiction

/-- A digit is no sign. -/
theorem scanSign_of_digit {c : Char} (digit : c.isDigit) (cs : List Char) :
    Numeral.scanSign (c :: cs) = (false, c :: cs) := by
  have minus := isDigit_ne digit (by decide : '-'.isDigit = false)
  have plus := isDigit_ne digit (by decide : '+'.isDigit = false)
  unfold Numeral.scanSign
  split <;> simp_all

theorem scanSign_exponentText (layout : Layout) (e : Int) (rest : List Char) :
    Numeral.scanSign (layout.exponentText e ++ rest)
      = (decide (e < 0), Nat.toDigits 10 e.natAbs ++ rest) := by
  unfold Layout.exponentText
  split
  case isTrue negative => simp [Numeral.scanSign, negative]
  case isFalse positive =>
    split
    · simp [Numeral.scanSign, positive]
    · obtain ⟨c, cs, digits⟩ := List.exists_cons_of_length_pos
        (Nat.length_toDigits_pos : 0 < (Nat.toDigits 10 e.natAbs).length)
      have digit : c.isDigit := isDigit_of_mem_toDigits (by rw [digits]; exact List.mem_cons_self)
      rw [digits, List.cons_append, scanSign_of_digit digit]
      simp [positive]

theorem readExponent_exponentText (layout : Layout) (e : Int) {rest : List Char}
    (ahead : NoDigitAhead rest) :
    readExponent ('e' :: layout.exponentText e ++ rest) = some (some e, rest) := by
  have digits := splitDigits_append (fun c => isDigit_of_mem_toDigits (n := e.natAbs)) ahead
  have nonempty : (Nat.toDigits 10 e.natAbs).isEmpty = false :=
    List.isEmpty_eq_false_iff.mpr (List.ne_nil_of_length_pos Nat.length_toDigits_pos)
  rw [List.cons_append, readExponent, if_pos (.inl rfl)]
  simp only [scanSign_exponentText, digits, nonempty, digitsValue_toDigits, decide_eq_true_eq]
  rw [if_neg (by simp)]
  split
  · rw [show -(e.natAbs : Int) = e by omega]
  · rw [show (e.natAbs : Int) = e by omega]

theorem readExponent_suffixText (layout : Layout) (exponent : Option Int) {rest : List Char}
    (ahead : NoNumeralAhead rest) :
    readExponent (layout.suffixText exponent ++ rest) = some (exponent, rest) := by
  cases exponent with
  | none => exact readExponent_of_none ahead
  | some e => exact readExponent_exponentText layout e ahead.noDigitAhead

theorem readFraction_of_none {rest : List Char} (ahead : ∀ c ∈ rest.head?, c ≠ '.') :
    readFraction rest = some (none, rest) := by
  cases rest with
  | nil => rfl
  | cons c cs =>
    have point := ahead c rfl
    unfold readFraction
    split
    · simp_all
    · rfl

theorem readFraction_fractionText {places rest : List Char} (all : ∀ c ∈ places, c.isDigit)
    (ahead : NoDigitAhead rest) (point : ∀ c ∈ rest.head?, c ≠ '.') :
    ∃ fraction, readFraction (Layout.fractionText places ++ rest) = some (fraction, rest)
      ∧ fraction.getD [] = places ∧ fraction.isNone = places.isEmpty := by
  cases places with
  | nil => exact ⟨none, readFraction_of_none point, rfl, rfl⟩
  | cons c cs =>
    refine ⟨some (c :: cs), ?_, rfl, rfl⟩
    change readFraction ('.' :: (c :: cs ++ rest)) = _
    rw [readFraction]
    simp only [splitDigits_append all ahead, List.isEmpty_cons, Bool.false_eq_true, if_false]

theorem readMinus_append {whole : List Char} (digits : ∀ c ∈ whole, c.isDigit)
    (valid : validWhole whole) (negative : Bool) (suffix : List Char) :
    readMinus ((if negative then ['-'] else []) ++ (whole ++ suffix))
      = (negative, whole ++ suffix) := by
  cases negative with
  | true => rfl
  | false =>
    obtain ⟨c, cs, rfl⟩ := exists_cons_of_validWhole valid
    have minus := isDigit_ne (digits c List.mem_cons_self) (by decide : '-'.isDigit = false)
    simp only [Bool.false_eq_true, if_false, List.nil_append, List.cons_append]
    unfold readMinus
    split <;> simp_all

/-- A number is read part by part. -/
theorem readNumber_of_parts (negative : Bool) {whole suffix rest' rest : List Char}
    {fraction : Option (List Char)} {exponent : Option Int}
    (digits : ∀ c ∈ whole, c.isDigit) (valid : validWhole whole) (ahead : NoDigitAhead suffix)
    (atFraction : readFraction suffix = some (fraction, rest'))
    (atExponent : readExponent rest' = some (exponent, rest)) :
    let places := fraction.getD []
    let value := digitsValue (whole ++ places)
    let decimal : Decimal := ⟨value, exponent.getD 0 - places.length⟩
    let integral := fraction.isNone && exponent.isNone && !(negative && value == 0)
    readNumber ((if negative then ['-'] else []) ++ (whole ++ suffix))
      = some (⟨⟨negative, if integral then decimal else decimal.normalize⟩, integral⟩, rest) := by
  unfold readNumber
  simp only [readMinus_append digits valid, splitDigits_append digits ahead, valid, atFraction,
    atExponent, Bool.not_true, Bool.false_eq_true, if_false, Option.bind_eq_bind, Option.bind_some,
    Option.pure_def]

/-- What is written for a decimal is read as a number that is not integral. -/
theorem readNumber_text (layout : Layout) {p : NumeralParts} (fractional : p.IsFractional)
    (negative : Bool) {rest : List Char} (ahead : NoNumeralAhead rest) :
    readNumber ((if negative then ['-'] else []) ++ (layout.text p ++ rest))
      = some (⟨⟨negative, p.decimal.normalize⟩, false⟩, rest) := by
  have behind : ∀ c ∈ (layout.suffixText p.exponent ++ rest).head?,
      c.isDigit = false ∧ c ≠ '.' := by
    cases p.exponent with
    | none => exact fun c first => ⟨(ahead c first).1, (ahead c first).2.1⟩
    | some e => simp [Layout.suffixText]
  have point : NoDigitAhead
      (Layout.fractionText p.places ++ (layout.suffixText p.exponent ++ rest)) := by
    unfold Layout.fractionText
    split
    · exact fun c first => (behind c first).1
    · simp [NoDigitAhead]
  obtain ⟨fraction, read, places, whole⟩ := readFraction_fractionText fractional.places_digits
    (fun c first => (behind c first).1) (fun c first => (behind c first).2)
  have number := readNumber_of_parts negative fractional.whole_digits
    fractional.whole_valid point read (readExponent_suffixText layout p.exponent ahead)
  have not_integral : (fraction.isNone && p.exponent.isNone) = false := by
    rw [whole]
    rcases fractional.marked with some_place | some_exponent
    · simp [some_place]
    · simp [Option.isNone_eq_false_iff.mpr some_exponent]
  unfold Layout.text
  rw [List.append_assoc, List.append_assoc, number]
  simp only [not_integral, places, Bool.false_and, Bool.false_eq_true, if_false,
    NumeralParts.decimal]

/-- The digits of a natural number are read as an integral number. -/
theorem readNumber_toDigits {n : Nat} {negative : Bool} (kept : ¬ (negative ∧ n = 0))
    {rest : List Char} (ahead : NoNumeralAhead rest) :
    readNumber ((if negative then ['-'] else []) ++ (Nat.toDigits 10 n ++ rest))
      = some (⟨⟨negative, ⟨n, 0⟩⟩, true⟩, rest) := by
  have valid : validWhole (Nat.toDigits 10 n) := by
    rcases Nat.eq_zero_or_pos n with rfl | positive
    · rfl
    · obtain ⟨c, cs, digits, first⟩ := exists_toDigits_cons positive.ne'
      rw [digits]
      exact validWhole_cons first cs
  have number := readNumber_of_parts negative (fun _ => isDigit_of_mem_toDigits) valid
    ahead.noDigitAhead (readFraction_of_none fun c first => (ahead c first).2.1)
    (readExponent_of_none ahead)
  have signed : (negative && n == 0) = false := by
    simpa using kept
  rw [number]
  simp [digitsValue_toDigits, signed]

end Json

/-- A number as the reader leaves it: an integral one has no exponent and is no negative zero, any
other has no trailing zeros. -/
def JsonNumber.IsCanonical (n : JsonNumber) : Prop :=
  if n.integral then n.numeral.decimal.exponent = 0
    ∧ ¬ (n.numeral.negative ∧ n.numeral.decimal.digits = 0)
  else n.numeral.decimal.normalize = n.numeral.decimal

/-- A canonical number is read back from its text. -/
theorem Json.readNumber_writeNumber {n : JsonNumber} (canonical : n.IsCanonical) {rest : List Char}
    (ahead : NoNumeralAhead rest) : readNumber (writeNumber n ++ rest) = some (n, rest) := by
  obtain ⟨⟨negative, digits, exponent⟩, integral⟩ := n
  unfold JsonNumber.IsCanonical at canonical
  unfold writeNumber
  dsimp only at canonical ⊢
  rw [List.append_assoc]
  split at canonical
  case isTrue whole =>
    obtain ⟨rfl, kept⟩ := canonical
    rw [if_pos whole, readNumber_toDigits kept ahead, whole]
  case isFalse fractional =>
    rw [if_neg fractional, Bool.eq_false_iff.mpr fractional]
    by_cases zero : digits = 0
    · have parts : (⟨['0'], ['0'], none⟩ : NumeralParts).IsFractional := by
        constructor <;> simp [validWhole]
      have number := readNumber_text numberLayout parts negative ahead
      have kept : (Decimal.mk digits exponent) = ⟨0, 0⟩ := by
        rw [← canonical, Decimal.normalize, if_pos zero]
      rw [if_pos zero, kept]
      exact number
    · obtain ⟨p, text, parts, value⟩ := numberLayout.exists_parts (d := ⟨digits, exponent⟩) zero
      rw [if_neg zero, text, readNumber_text numberLayout parts negative ahead, value, canonical]

end CircuitNetlist
