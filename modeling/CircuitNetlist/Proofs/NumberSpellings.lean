import CircuitNetlist.Parameter.Text
import CircuitNetlist.Proofs.NumeralGrammar
import CircuitNetlist.Proofs.Steps
import CircuitNetlist.Proofs.WrittenNumbers

/-!
# The spelling of parameter numbers

Integers and finite doubles are written as numerals that denote them, and a mantissa that is given
as text is written as it is given. Among the texts that name a double are the words for the
infinities and for NaN, and these are no numerals: a number is written as a numeral with a scale
behind it exactly if its mantissa is none of these words.
-/
namespace CircuitNetlist

/-! ### Integers -/

theorem isSign_ite (minus plus : Prop) [Decidable minus] [Decidable plus] :
    IsSign (if minus then ['-'] else if plus then ['+'] else []) := by
  unfold IsSign
  split_ifs <;> simp

/-- An exponent whose digits are those of the number. -/
def ExponentSpelling.ofInt (plus : Bool) (e : Int) : ExponentSpelling where
  letter := 'e'
  sign := if e < 0 then ['-'] else if plus then ['+'] else []
  digits := Nat.toDigits 10 e.natAbs

/-- A numeral that is a sign, if there has to be one, and the digits of an integer. -/
def NumeralSpelling.ofInt (i : Int) : NumeralSpelling where
  sign := if i < 0 then ['-'] else []
  whole := Nat.toDigits 10 i.natAbs
  places := none
  exponent := none

theorem toList_toString_int (i : Int) :
    (toString i).toList = (if i < 0 then ['-'] else []) ++ Nat.toDigits 10 i.natAbs := by
  change i.repr.toList = _
  rw [Int.repr_eq_if]
  split
  case isTrue positive =>
    rw [if_neg (by omega), Nat.repr_eq_ofList_toDigits, String.toList_ofList,
      show i.toNat = i.natAbs by omega]
    rfl
  case isFalse negative =>
    rw [if_pos (by omega), Nat.repr_eq_ofList_toDigits, String.toList_append,
      String.toList_ofList, String.toList_ofList, show (-i).toNat = i.natAbs by omega]

theorem toDigits_ne_nil (n : Nat) : Nat.toDigits 10 n ≠ [] :=
  List.ne_nil_of_length_pos Nat.length_toDigits_pos

namespace ExponentSpelling

theorem isWellFormed_ofInt (plus : Bool) (e : Int) : (ofInt plus e).IsWellFormed where
  letter := .inl rfl
  sign := isSign_ite (e < 0) plus
  digits := fun _ => isDigit_of_mem_toDigits
  nonempty := toDigits_ne_nil _

theorem value_ofInt (plus : Bool) (e : Int) : (ofInt plus e).value = e := by
  unfold value ofInt
  rw [digitsValue_toDigits]
  dsimp only
  split_ifs <;> first | contradiction | omega

theorem text_ofInt_false (e : Int) : (ofInt false e).text = 'e' :: (toString e).toList := by
  rw [toList_toString_int]
  rfl

end ExponentSpelling

namespace NumeralSpelling

theorem isNumeral_ofInt (i : Int) : (ofInt i).IsNumeral where
  sign := isSign_ite (i < 0) False
  whole := fun _ => isDigit_of_mem_toDigits
  places := by simp [ofInt]
  nonempty := .inl (toDigits_ne_nil _)
  exponent := by simp [ofInt]

theorem text_ofInt (i : Int) : (ofInt i).text = (toString i).toList := by
  rw [toList_toString_int]
  simp [text, ofInt, placesText, exponentText]

theorem value_ofInt (i : Int) : (ofInt i).numeral.value = i := by
  have magnitude : (ofInt i).numeral.decimal.value = |(i : Rat)| := by
    simp [numeral, ofInt, Decimal.value, digitsValue_toDigits, exponentValue]
  rw [Numeral.value, magnitude]
  rcases lt_or_ge i 0 with negative | positive
  · have sign : (ofInt i).numeral.negative = true := by simp [numeral, ofInt, negative]
    rw [if_pos sign, abs_of_neg (by exact_mod_cast negative), neg_neg]
  · have sign : (ofInt i).numeral.negative = false := by simp [numeral, ofInt, not_lt.mpr positive]
    rw [if_neg (by simp [sign]), abs_of_nonneg (by exact_mod_cast positive)]

/-! ### Doubles -/

/-- The parts of a number in some layout, with a sign. -/
def ofParts (layout : Layout) (negative : Bool) (parts : NumeralParts) : NumeralSpelling where
  sign := if negative then ['-'] else []
  whole := parts.whole
  places := if parts.places.isEmpty then none else some parts.places
  exponent := parts.exponent.map (ExponentSpelling.ofInt layout.signedExponent)

variable {layout : Layout} {negative : Bool} {parts : NumeralParts}

theorem places_ofParts : (ofParts layout negative parts).places.getD [] = parts.places := by
  unfold ofParts
  dsimp only
  split
  case isTrue empty => exact (List.isEmpty_iff.mp empty).symm
  case isFalse => rfl

theorem isNumeral_ofParts (fractional : parts.IsFractional) :
    (ofParts layout negative parts).IsNumeral where
  sign := isSign_ite negative False
  whole := fractional.whole_digits
  places := by
    rw [places_ofParts]
    exact fractional.places_digits
  nonempty := by
    obtain ⟨c, cs, whole⟩ := exists_cons_of_validWhole fractional.whole_valid
    exact .inl (by simp [ofParts, whole])
  exponent := by
    intro e taken
    obtain ⟨value, -, rfl⟩ := Option.mem_map.mp taken
    exact ExponentSpelling.isWellFormed_ofInt _ value

theorem text_ofParts : (ofParts layout negative parts).text
    = (if negative then ['-'] else []) ++ layout.text parts := by
  have fraction : placesText (ofParts layout negative parts).places
      = Layout.fractionText parts.places := by
    unfold ofParts Layout.fractionText
    dsimp only
    split <;> rfl
  have suffix : exponentText (ofParts layout negative parts).exponent
      = layout.suffixText parts.exponent := by
    unfold ofParts
    cases parts.exponent with
    | none => rfl
    | some e =>
        simp only [Option.map_some, exponentText, ExponentSpelling.text, ExponentSpelling.ofInt,
          Layout.suffixText, Layout.exponentText]
        split_ifs <;> rfl
  rw [text, fraction, suffix]
  rfl

theorem numeral_ofParts : (ofParts layout negative parts).numeral = ⟨negative, parts.decimal⟩ := by
  have value : exponentValue (ofParts layout negative parts).exponent = parts.exponent.getD 0 := by
    unfold ofParts
    cases parts.exponent with
    | none => rfl
    | some e => exact ExponentSpelling.value_ofInt _ e
  have sign : decide ((ofParts layout negative parts).sign = ['-']) = negative := by
    cases negative <;> rfl
  rw [numeral, places_ofParts, value, sign]
  rfl

end NumeralSpelling

/-- The text of a finite double is a numeral, and the double is the one nearest to it. -/
theorem Double.exists_spelling {x : Double} (finite : x.isFinite) :
    ∃ p : NumeralSpelling, p.IsNumeral ∧ p.text = x.text.toList ∧
      ofDecimal p.numeral.negative p.numeral.decimal = x := by
  obtain ⟨parts, fractional, written, denotes⟩ := exists_parts_magnitude netlistLayout finite
  refine ⟨.ofParts netlistLayout x.isNegative parts, NumeralSpelling.isNumeral_ofParts fractional,
    ?_, ?_⟩
  · rw [NumeralSpelling.text_ofParts, Double.text, toList_render netlistLayout finite, written]
  · rw [NumeralSpelling.numeral_ofParts]
    exact denotes parts.decimal rfl

/-! ### Words that are no numbers -/

/-- A word for an infinity or for NaN, in any case and with an optional sign. -/
def IsSpecialWord (cs : List Char) : Prop :=
  ∃ sign word, IsSign sign ∧ word.map Char.toLower ∈ Numeral.specialWords ∧ cs = sign ++ word

namespace Numeral
variable {cs : List Char}

/-- A special word starts with a letter. -/
theorem head_of_special {word : List Char} (special : word.map Char.toLower ∈ specialWords) :
    ∃ c rest, word = c :: rest ∧ (c.toLower = 'i' ∨ c.toLower = 'n') := by
  cases word with
  | nil => exact absurd special (by decide)
  | cons c rest =>
      refine ⟨c, rest, rfl, ?_⟩
      simp only [specialWords, List.map_cons, List.mem_cons, List.cons.injEq] at special
      tauto

theorem special_iff :
    specialWords.contains ((scanSign cs).2.map Char.toLower) = true ↔ IsSpecialWord cs := by
  rw [List.contains_iff_mem]
  constructor
  · intro special
    obtain ⟨sign, isSign, -, split⟩ := sign_of_scanSign (Prod.mk.eta (p := scanSign cs))
    exact ⟨sign, _, isSign, special, split⟩
  · rintro ⟨sign, word, isSign, special, rfl⟩
    obtain ⟨c, rest, rfl, letter⟩ := head_of_special special
    have ahead : ∀ d ∈ (c :: rest).head?, d ≠ '+' ∧ d ≠ '-' := by
      rintro d ⟨⟩
      constructor <;> rintro rfl <;> exact absurd letter (by decide)
    rw [scanSign_append isSign ahead]
    exact special

/-- A special word is no numeral. -/
theorem text_ne_of_special (special : IsSpecialWord cs) {p : NumeralSpelling}
    (numeral : p.IsNumeral) : p.text ≠ cs := by
  rintro rfl
  have atSign := numeral.scanSign []
  obtain ⟨c, behind, front, first⟩ :=
    numeral.exists_front (NumeralSpelling.exponentText p.exponent ++ [])
  rw [List.append_nil, front] at atSign
  have word := List.contains_iff_mem.mp (special_iff.mpr special)
  rw [atSign] at word
  obtain ⟨_, _, ⟨rfl, rfl⟩, letter⟩ := head_of_special word
  obtain digit | rfl := first
  · have plain : c.toLower = c := by
      unfold Char.toLower
      rw [dif_neg]
      rintro ⟨low, -⟩
      have high := (Bool.and_eq_true_iff.mp digit).2
      grind
    rw [plain] at letter
    obtain rfl | rfl := letter <;> exact absurd digit (by decide)
  · exact absurd letter (by decide)

/-- The texts that name a double are the numerals and the special words. -/
theorem namesDouble_iff : namesDouble cs = true ↔
    (∃ p : NumeralSpelling, p.IsNumeral ∧ p.text = cs) ∨ IsSpecialWord cs := by
  rw [namesDouble, Bool.or_eq_true, isNumeral_iff, special_iff]

end Numeral

/-! ### Mantissas and their scale -/

/-- The numeral is that of the mantissa: it denotes an integer exactly, and a double up to the
rounding of its shortest text; a text is the numeral itself, without the blanks around it. -/
def Mantissa.IsSpelled : Mantissa → NumeralSpelling → Prop
  | .int i, p => p.numeral.value = i.toInt
  | .double x, p => p.text = x.text.toList ∧
      Double.ofDecimal p.numeral.negative p.numeral.decimal = x
  | .text s, p => p.text = trim s.toList

/-- A mantissa has the text of a numeral, or is itself a special word. -/
theorem Mantissa.spelling_of_textOf {m : Mantissa} {body : String} (written : m.textOf = .ok body) :
    (∃ p : NumeralSpelling, p.IsNumeral ∧ p.text = body.toList ∧ m.IsSpelled p) ∨
      ∃ s, m = .text s ∧ IsSpecialWord (trim s.toList) := by
  cases m with
  | int i =>
      obtain rfl := Except.ok.inj written
      exact .inl ⟨_, NumeralSpelling.isNumeral_ofInt i.toInt, NumeralSpelling.text_ofInt i.toInt,
        NumeralSpelling.value_ofInt i.toInt⟩
  | double x =>
      rw [textOf] at written
      split at written
      case isFalse => contradiction
      case isTrue finite =>
        obtain rfl := Except.ok.inj written
        obtain ⟨p, numeral, text, nearest⟩ := Double.exists_spelling finite
        exact .inl ⟨p, numeral, text, text, nearest⟩
  | text s =>
      rw [textOf] at written
      split at written
      case isFalse => contradiction
      case isTrue names =>
        obtain rfl := Except.ok.inj written
        rw [String.toList_ofList]
        obtain ⟨p, numeral, text⟩ | special := Numeral.namesDouble_iff.mp names
        · exact .inl ⟨p, numeral, text, text⟩
        · exact .inr ⟨s, rfl, special⟩

/-- A mantissa that is given as text is written as it is given. -/
theorem Mantissa.toList_of_textOf {s body : String}
    (written : (Mantissa.text s).textOf = .ok body) : body.toList = trim s.toList := by
  rw [textOf] at written
  split at written
  case isFalse => contradiction
  case isTrue =>
    obtain rfl := Except.ok.inj written
    exact String.toList_ofList

namespace Value

/-- The mantissa of a number, with or without a scale. -/
def mantissa? : Value → Option Mantissa
  | int i => some (.int i)
  | double x => some (.double x)
  | scaled s => some s.mantissa
  | text _ | literal _ => none

/-- The scale of a number; one that is given without a scale is in units. -/
def scale : Value → SiScale
  | scaled s => s.scale
  | _ => .unit

end Value

theorem Dialect.scaleText_unit (d : Dialect) : d.scaleText .unit = "" := by
  cases d <;> rfl

theorem paramText_eq_ok {d : Dialect} {name : String} {v : Value} {t : ValueText} :
    paramText d name v = .ok t ↔ v.textOf d = .ok t := by
  unfold paramText
  cases v.textOf d <;> simp [Except.mapError]

/-- The text of a number is that of its mantissa with the suffix behind it, of which at most one has
an exponent. -/
theorem paramText_number {d : Dialect} {name : String} {v : Value} {m : Mantissa} {t : ValueText}
    (number : v.mantissa? = some m) (accepted : paramText d name v = .ok t) :
    ∃ body, m.textOf = .ok body ∧ t = { text := body ++ d.scaleText v.scale } ∧
      ((d.scaleText v.scale).toList.head? = some 'e' → hasExponentLetter body = false) := by
  rw [paramText_eq_ok] at accepted
  cases v with
  | text s => contradiction
  | literal s => contradiction
  | int i =>
      obtain rfl := Option.some.inj number
      obtain rfl := Except.ok.inj accepted
      exact ⟨_, rfl, by simp [Value.scale, d.scaleText_unit],
        by simp [Value.scale, d.scaleText_unit]⟩
  | double x =>
      obtain rfl := Option.some.inj number
      rw [Value.textOf] at accepted
      split at accepted
      case isFalse => contradiction
      case isTrue finite =>
        obtain rfl := Except.ok.inj accepted
        exact ⟨_, by rw [Mantissa.textOf, if_pos finite], by simp [Value.scale, d.scaleText_unit],
          by simp [Value.scale, d.scaleText_unit]⟩
  | scaled s =>
      obtain rfl := Option.some.inj number
      obtain ⟨text, scaled, same⟩ := bind_eq_ok.mp accepted
      obtain rfl := pure_eq_ok.mp same
      obtain ⟨body, written, rest⟩ := bind_eq_ok.mp scaled
      dsimp only at rest
      split at rest
      case isTrue => exact absurd rest throw_bind_ne_ok
      case isFalse apart =>
        obtain rfl := pure_eq_ok.mp rest
        exact ⟨body, written, rfl, by simpa [Value.scale] using apart⟩

/-- A number that is accepted is written as a numeral with the suffix of its scale, exactly if its
mantissa is none of the words for the infinities and for NaN. A mantissa that is given as text is
written as it is given, such a word too. -/
theorem number_written_finite_iff {d : Dialect} {name : String} {v : Value} {m : Mantissa}
    {t : ValueText} (number : v.mantissa? = some m) (accepted : paramText d name v = .ok t) :
    t.isExpression = false ∧
    ((∃ p : NumeralSpelling, p.IsNumeral ∧ t.text.toList = p.text ++ (d.scaleText v.scale).toList) ↔
      ∀ s, m = .text s → ¬ IsSpecialWord (trim s.toList)) ∧
    ∀ s, m = .text s → t.text.toList = trim s.toList ++ (d.scaleText v.scale).toList := by
  obtain ⟨body, written, rfl, -⟩ := paramText_number number accepted
  have split : (body ++ d.scaleText v.scale).toList = body.toList ++ (d.scaleText v.scale).toList :=
    String.toList_append
  refine ⟨rfl, ?_, ?_⟩
  · simp only [split, List.append_left_inj]
    constructor
    · rintro ⟨p, numeral, text⟩ s rfl special
      rw [Mantissa.toList_of_textOf written] at text
      exact Numeral.text_ne_of_special special numeral text.symm
    · intro ordinary
      obtain ⟨p, numeral, text, -⟩ | ⟨s, given, special⟩ := Mantissa.spelling_of_textOf written
      · exact ⟨p, numeral, text.symm⟩
      · exact absurd special (ordinary s given)
  · rintro s rfl
    rw [split, Mantissa.toList_of_textOf written]

/-- A mantissa in exponent notation, with blanks around it. -/
def spacedMega : Value :=
  .scaled ⟨.mega, .text " -1.5E3\t"⟩

theorem number_written_finite_spaced :
    paramText .hspice "w" spacedMega = .ok { text := "-1.5E3meg" } ∧
      ∃ p : NumeralSpelling, p.IsNumeral ∧ "-1.5E3meg".toList = p.text ++ "meg".toList := by
  have accepted : paramText .hspice "w" spacedMega = .ok { text := "-1.5E3meg" } := by
    decide +kernel
  obtain ⟨-, finite, -⟩ := number_written_finite_iff rfl accepted
  refine ⟨accepted, finite.mpr ?_⟩
  rintro s ⟨⟩ special
  exact absurd (Numeral.special_iff.mpr special) (by decide +kernel)

/-- The word `inf` is accepted as a mantissa, and the suffix stands behind it. -/
theorem number_written_infinite :
    paramText .spice "r" (.scaled ⟨.kilo, .text "inf"⟩) = .ok { text := "infk" } ∧
      ¬ ∃ p : NumeralSpelling, p.IsNumeral ∧ "infk".toList = p.text ++ "k".toList := by
  refine ⟨by decide +kernel, ?_⟩
  rintro ⟨p, numeral, text⟩
  have special : IsSpecialWord "inf".toList := Numeral.special_iff.mp (by decide +kernel)
  have split : "infk".toList = "inf".toList ++ "k".toList := rfl
  rw [split, List.append_left_inj] at text
  exact Numeral.text_ne_of_special special numeral text.symm

end CircuitNetlist
