import CircuitNetlist.Proofs.NumberSpellings

/-!
# Numbers read with their scale

A simulator reads a number as the longest numeral at the front of a word and scales it by the
letters behind. A mantissa and its suffix are written without anything between them, and are still
taken apart where they were put together: no suffix starts like the rest of a numeral, and one that
is an exponent only stands behind a mantissa that has none.
-/
namespace CircuitNetlist

/-! ### Reading -/

namespace Family

/-- The scale words and the powers of ten that they stand for; no word at all stands for the
unit. -/
def scaleWords : Family → List (List Char × Int)
  | .spice => [([], 0), (['f'], -15), (['p'], -12), (['n'], -9), (['u'], -6), (['m'], -3),
      (['k'], 3), (['m', 'e', 'g'], 6), (['g'], 9), (['t'], 12)]
  | .spectre => [([], 0), (['a'], -18), (['f'], -15), (['p'], -12), (['n'], -9), (['u'], -6),
      (['m'], -3), (['K'], 3), (['M'], 6), (['G'], 9), (['T'], 12), (['P'], 15)]
  | .verilog => [([], 0)]

/-- A character as it counts in a scale word: in the Spice family case has no meaning. -/
def foldCase : Family → Char → Char
  | .spice, c => c.toLower
  | _, c => c

/-- The power of ten that a scale word stands for. -/
def scaleOf (f : Family) (word : List Char) : Option Int :=
  f.scaleWords.lookup (word.map f.foldCase)

end Family

namespace Dialect
variable {d : Dialect}

/-- The number that a word denotes: the longest numeral in front, scaled by all that is left. -/
def Reads (d : Dialect) (word : List Char) (r : Rat) : Prop :=
  ∃ (p : NumeralSpelling) (letters : List Char) (scale : Int), p.IsLongestIn word letters ∧
    d.family.scaleOf letters = some scale ∧ r = p.numeral.value * (10 : Rat) ^ scale

/-- A numeral with a scale word behind it that cannot go on a numeral is read in one way. -/
theorem reads_append_iff {p : NumeralSpelling} {letters : List Char} {scale : Int}
    (numeral : p.IsNumeral) (ahead : Json.NoNumeralAhead letters)
    (known : d.family.scaleOf letters = some scale) {r : Rat} :
    d.Reads (p.text ++ letters) r ↔ r = p.numeral.value * (10 : Rat) ^ scale := by
  have scanned := numeral.scan_append ahead
  constructor
  · rintro ⟨q, left, scale', longest, known', rfl⟩
    have taken := Numeral.scan_eq_some_iff.mpr ⟨q, longest, rfl⟩
    rw [scanned] at taken
    obtain ⟨same, rfl⟩ := Prod.mk.inj (Option.some.inj taken)
    rw [known] at known'
    rw [same, Option.some.inj known']
  · rintro rfl
    obtain ⟨q, longest, same⟩ := Numeral.scan_eq_some_iff.mp scanned
    exact ⟨q, letters, scale, longest, known, by rw [same]⟩

/-- Scale letters are read as the scale that they were written for, and none of them goes on a
numeral. -/
theorem scaleOf_letters {s : SiScale} {letters : String}
    (written : d.scaleLetters s = some letters) :
    d.family.scaleOf letters.toList = some s.exponent ∧ Json.NoNumeralAhead letters.toList := by
  unfold scaleLetters at written
  cases family : d.family with
  | spice =>
      rw [family] at written
      cases s <;> cases written <;> exact ⟨by decide, by simp [Json.NoNumeralAhead]⟩
  | spectre =>
      rw [family] at written
      cases s <;> cases written <;> exact ⟨by decide, by simp [Json.NoNumeralAhead]⟩
  | verilog =>
      rw [family] at written
      cases written

theorem scaleOf_nil (f : Family) : f.scaleOf [] = some 0 := by
  cases f <;> rfl

/-- A numeral by itself. -/
theorem reads_text_iff {p : NumeralSpelling} (numeral : p.IsNumeral) {r : Rat} :
    d.Reads p.text r ↔ r = p.numeral.value := by
  have alone := reads_append_iff numeral Json.noNumeralAhead_nil (scaleOf_nil d.family) (r := r)
  rwa [List.append_nil, zpow_zero, mul_one] at alone

end Dialect

/-! ### Writing -/

namespace NumeralSpelling
variable {p : NumeralSpelling}

/-- The numeral with an exponent in the place of its own. -/
def withExponent (p : NumeralSpelling) (e : Int) : NumeralSpelling :=
  { p with exponent := some (.ofInt false e) }

theorem IsNumeral.withExponent (numeral : p.IsNumeral) (e : Int) :
    (p.withExponent e).IsNumeral where
  sign := numeral.sign
  whole := numeral.whole
  places := numeral.places
  nonempty := numeral.nonempty
  exponent := by
    rintro _ ⟨⟩
    exact ExponentSpelling.isWellFormed_ofInt false e

theorem text_withExponent (none : p.exponent = none) (e : Int) :
    (p.withExponent e).text = p.text ++ ('e' :: (toString e).toList) := by
  rw [← ExponentSpelling.text_ofInt_false]
  simp [text, NumeralSpelling.withExponent, none, exponentText]

theorem value_withExponent (none : p.exponent = none) (e : Int) :
    (p.withExponent e).numeral.value = p.numeral.value * (10 : Rat) ^ e := by
  have moved : (p.withExponent e).numeral.decimal.value
      = p.numeral.decimal.value * (10 : Rat) ^ e := by
    simp only [Decimal.value, numeral, NumeralSpelling.withExponent, none, exponentValue,
      ExponentSpelling.value_ofInt]
    rw [mul_assoc, ← zpow_add₀ (by norm_num), show (0 : Int) - (p.places.getD []).length + e
      = e - (p.places.getD []).length by ring]
  rw [Numeral.value, Numeral.value, moved]
  change (if p.numeral.negative then _ else _) = _
  split
  · rw [neg_mul]
  · rfl

/-- Only a numeral with an exponent has an exponent letter. -/
theorem exponent_of_hasExponentLetter {body : String} (text : p.text = body.toList)
    (without : hasExponentLetter body = false) (numeral : p.IsNumeral) : p.exponent = none := by
  cases present : p.exponent with
  | none => rfl
  | some e =>
      have letter : e.letter ∈ body.toList := by
        rw [← text, NumeralSpelling.text, present]
        simp [exponentText, ExponentSpelling.text]
      have found := List.any_eq_false.mp without e.letter letter
      have isLetter := (numeral.exponent e present).letter
      simp [isLetter] at found

end NumeralSpelling

/-- With the suffix of a scale behind it a numeral is read as scaled. -/
theorem Dialect.reads_scaled_iff {d : Dialect} {p : NumeralSpelling} {s : SiScale}
    (numeral : p.IsNumeral)
    (apart : (d.scaleText s).toList.head? = some 'e' → p.exponent = none) {r : Rat} :
    d.Reads (p.text ++ (d.scaleText s).toList) r
      ↔ r = p.numeral.value * (10 : Rat) ^ s.exponent := by
  unfold scaleText at apart ⊢
  cases written : d.scaleLetters s with
  | some letters =>
      obtain ⟨known, ahead⟩ := scaleOf_letters written
      exact reads_append_iff numeral ahead known
  | none =>
      rw [written] at apart
      by_cases unit : s = .unit
      · subst unit
        simpa [SiScale.exponent] using reads_text_iff (d := d) numeral (r := r)
      · simp only [unit, ↓reduceIte] at apart ⊢
        have suffix : s!"e{s.exponent}".toList = 'e' :: (toString s.exponent).toList := by
          rw [String.toList_append]
          rfl
        rw [suffix] at apart ⊢
        have none := apart rfl
        rw [← NumeralSpelling.text_withExponent none,
          reads_text_iff (numeral.withExponent s.exponent),
          NumeralSpelling.value_withExponent none]

/-- An accepted number with a scale, whose mantissa is not one of the special words, is read as the
mantissa's numeral times the power of ten of the scale, and in no other way. The numeral is the
mantissa: an integer exactly, a text as it is spelled, and a double as the decimal whose nearest
double it is. Where the suffix is an exponent the mantissa has none. -/
theorem scaled_number_reads {d : Dialect} {name : String} {s : Scaled} {t : ValueText}
    (accepted : paramText d name (.scaled s) = .ok t)
    (spelled : ∀ text, s.mantissa = .text text →
      ∃ p : NumeralSpelling, p.IsNumeral ∧ p.text = trim text.toList) :
    ∃ p : NumeralSpelling, p.IsNumeral ∧ s.mantissa.IsSpelled p ∧
      (t.render d).toList = p.text ++ (d.scaleText s.scale).toList ∧
      ((d.scaleText s.scale).toList.head? = some 'e' → p.exponent = none) ∧
      ∀ r, d.Reads (t.render d).toList r ↔ r = p.numeral.value * (10 : Rat) ^ s.scale.exponent := by
  obtain ⟨body, written, rfl, apart⟩ := paramText_number rfl accepted
  obtain ⟨p, numeral, text, denotes⟩ | ⟨word, given, special⟩ :=
    Mantissa.spelling_of_textOf written
  · have rendered : ((ValueText.mk (body ++ d.scaleText s.scale) false).render d).toList
        = p.text ++ (d.scaleText s.scale).toList := by
      rw [text, ← String.toList_append]
      rfl
    have without : (d.scaleText s.scale).toList.head? = some 'e' → p.exponent = none :=
      fun exponent => NumeralSpelling.exponent_of_hasExponentLetter text (apart exponent) numeral
    refine ⟨p, numeral, denotes, rendered, without, ?_⟩
    intro r
    change d.Reads ((ValueText.mk (body ++ d.scaleText s.scale) false).render d).toList r ↔ _
    rw [rendered]
    exact Dialect.reads_scaled_iff numeral without
  · obtain ⟨p, numeral, text⟩ := spelled word given
    exact absurd text (Numeral.text_ne_of_special special numeral)

/-- A text with an exponent, in millions. -/
def scaledText : Scaled where
  scale := .mega
  mantissa := .text " +2.50E-3"

theorem scaled_number_reads_text :
    paramText .spectre "r" (.scaled scaledText) = .ok { text := "+2.50E-3M" } ∧
      ∀ r, Dialect.Reads .spectre "+2.50E-3M".toList r ↔ r = 2500 := by
  have accepted : paramText .spectre "r" (.scaled scaledText) = .ok { text := "+2.50E-3M" } := by
    decide +kernel
  obtain ⟨p, numeral, text, -, -, reads⟩ := scaled_number_reads accepted (by
    rintro text ⟨⟩
    exact Numeral.isNumeral_iff.mp (by decide +kernel))
  have scanned := numeral.scan
  rw [show p.text = trim " +2.50E-3".toList from text,
    show Numeral.scan (trim " +2.50E-3".toList) = some (⟨false, ⟨250, -5⟩⟩, []) by decide +kernel]
    at scanned
  obtain ⟨value, -⟩ := Prod.mk.inj (Option.some.inj scanned)
  refine ⟨accepted, ?_⟩
  intro r
  have number : p.numeral.value * (10 : Rat) ^ scaledText.scale.exponent = 2500 := by
    rw [← value]
    norm_num [Numeral.value, Decimal.value, scaledText, SiScale.exponent]
  rw [← number]
  exact reads r

/-- The double nearest to one tenth. -/
def oneTenth : Double where
  bits := 0x3FB999999999999A

/-- It is written as one tenth, which it is not. -/
theorem scaled_number_reads_rounded :
    oneTenth.isFinite ∧ paramText .spice "r" (.scaled ⟨.kilo, .double oneTenth⟩)
        = .ok { text := "0.1k" } ∧
      ¬ Dialect.Reads .spice "0.1k".toList
        (oneTenth.value * (10 : Rat) ^ SiScale.kilo.exponent) := by
  have apart : oneTenth.value ≠ 1 / 10 := by decide +kernel
  have numeral : (⟨[], ['0'], some ['1'], none⟩ : NumeralSpelling).IsNumeral := by
    constructor <;> simp [IsSign]
  have tenth : (⟨[], ['0'], some ['1'], none⟩ : NumeralSpelling).numeral.value = 1 / 10 := by
    decide +kernel
  refine ⟨by decide +kernel, by decide +kernel, ?_⟩
  intro reads
  have scaled := (Dialect.reads_scaled_iff (s := .kilo) numeral fun _ => rfl).mp reads
  rw [tenth] at scaled
  exact apart (mul_right_cancel₀ (zpow_ne_zero _ (by norm_num)) scaled)

end CircuitNetlist
