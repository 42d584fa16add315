import CircuitNetlist.Proofs.NumeralTexts

/-!
# The grammar of numerals

A numeral is an optional sign, digits, optionally a point with further digits, and optionally an
exponent; at least one digit stands before the exponent. What the scanner takes from the front of a
text is the longest of these that stands there, and it is nothing only if none does.
-/
namespace CircuitNetlist

/-- An optional sign. -/
def IsSign (cs : List Char) : Prop :=
  cs = [] ∨ cs = ['+'] ∨ cs = ['-']

/-- An exponent: a letter, an optional sign and digits. -/
structure ExponentSpelling where
  letter : Char
  sign : List Char
  digits : List Char

namespace ExponentSpelling

def text (e : ExponentSpelling) : List Char :=
  e.letter :: (e.sign ++ e.digits)

def value (e : ExponentSpelling) : Int :=
  if e.sign = ['-'] then -(digitsValue e.digits : Int) else digitsValue e.digits

structure IsWellFormed (e : ExponentSpelling) : Prop where
  letter : e.letter = 'e' ∨ e.letter = 'E'
  sign : IsSign e.sign
  digits : ∀ c ∈ e.digits, c.isDigit
  nonempty : e.digits ≠ []

end ExponentSpelling

/-- The parts of a numeral as they are spelled: the digits behind the point are there if the point
is, even if they are none. -/
structure NumeralSpelling where
  sign : List Char
  whole : List Char
  places : Option (List Char)
  exponent : Option ExponentSpelling

namespace NumeralSpelling

def placesText : Option (List Char) → List Char
  | none => []
  | some places => '.' :: places

def exponentText : Option ExponentSpelling → List Char
  | none => []
  | some e => e.text

def exponentValue : Option ExponentSpelling → Int
  | none => 0
  | some e => e.value

def text (p : NumeralSpelling) : List Char :=
  p.sign ++ (p.whole ++ (placesText p.places ++ exponentText p.exponent))

/-- What the numeral denotes. -/
def numeral (p : NumeralSpelling) : Numeral where
  negative := p.sign = ['-']
  decimal :=
    { digits := digitsValue (p.whole ++ p.places.getD [])
      exponent := exponentValue p.exponent - (p.places.getD []).length }

structure IsNumeral (p : NumeralSpelling) : Prop where
  sign : IsSign p.sign
  whole : ∀ c ∈ p.whole, c.isDigit
  places : ∀ c ∈ p.places.getD [], c.isDigit
  nonempty : p.whole ≠ [] ∨ p.places.getD [] ≠ []
  exponent : ∀ e ∈ p.exponent, e.IsWellFormed

/-- The numeral stands at the front of the text, no longer one does, and the rest is left. -/
structure IsLongestIn (p : NumeralSpelling) (cs rest : List Char) : Prop where
  numeral : p.IsNumeral
  front : cs = p.text ++ rest
  longest : ∀ (q : NumeralSpelling) (rest' : List Char), q.IsNumeral → cs = q.text ++ rest' →
    q.text.length ≤ p.text.length

end NumeralSpelling

namespace Numeral
variable {cs rest : List Char}

/-! ### What the scanner takes is a numeral -/

theorem sign_of_scanSign {negative : Bool} (scanned : scanSign cs = (negative, rest)) :
    ∃ sign, IsSign sign ∧ decide (sign = ['-']) = negative ∧ cs = sign ++ rest := by
  unfold scanSign at scanned
  split at scanned
  · obtain ⟨rfl, rfl⟩ := Prod.mk.inj scanned
    exact ⟨['-'], .inr (.inr rfl), rfl, rfl⟩
  · obtain ⟨rfl, rfl⟩ := Prod.mk.inj scanned
    exact ⟨['+'], .inr (.inl rfl), rfl, rfl⟩
  · obtain ⟨rfl, rfl⟩ := Prod.mk.inj scanned
    exact ⟨[], .inl rfl, rfl, rfl⟩

theorem digits_of_splitDigits {digits : List Char} (split : splitDigits cs = (digits, rest)) :
    (∀ c ∈ digits, c.isDigit) ∧ cs = digits ++ rest := by
  obtain ⟨rfl, rfl⟩ := Prod.mk.inj split
  exact ⟨List.all_eq_true.mp List.all_takeWhile, List.takeWhile_append_dropWhile.symm⟩

theorem places_of_scanFraction {digits : List Char} (scanned : scanFraction cs = (digits, rest)) :
    ∃ places, (∀ c ∈ digits, c.isDigit) ∧ places.getD [] = digits ∧
      cs = NumeralSpelling.placesText places ++ rest := by
  unfold scanFraction at scanned
  split at scanned
  case h_1 behind =>
    obtain ⟨all, rfl⟩ := digits_of_splitDigits scanned
    exact ⟨some digits, all, rfl, rfl⟩
  case h_2 =>
    obtain ⟨rfl, rfl⟩ := Prod.mk.inj scanned
    exact ⟨none, by simp, rfl, rfl⟩

theorem exponent_of_scanExponent {value : Int} (scanned : scanExponent cs = (value, rest)) :
    ∃ exponent, (∀ e ∈ exponent, e.IsWellFormed) ∧
      NumeralSpelling.exponentValue exponent = value ∧
      cs = NumeralSpelling.exponentText exponent ++ rest := by
  have nothing : (0, cs) = (value, rest) → ∃ exponent, (∀ e ∈ exponent, e.IsWellFormed) ∧
      NumeralSpelling.exponentValue exponent = value ∧
      cs = NumeralSpelling.exponentText exponent ++ rest := by
    rintro ⟨⟩
    exact ⟨none, by simp, rfl, rfl⟩
  unfold scanExponent at scanned
  split at scanned
  case h_2 => exact nothing scanned
  case h_1 c behind =>
    split at scanned
    case isFalse => exact nothing scanned
    case isTrue letter =>
      cases atSign : scanSign behind with
      | mk negative behind' =>
          cases atDigits : splitDigits behind' with
          | mk digits behind'' =>
              simp only [atSign, atDigits] at scanned
              split at scanned
              case isTrue => exact nothing scanned
              case isFalse nonempty =>
                obtain ⟨sign, isSign, rfl, rfl⟩ := sign_of_scanSign atSign
                obtain ⟨all, rfl⟩ := digits_of_splitDigits atDigits
                obtain ⟨rfl, rfl⟩ := Prod.mk.inj scanned
                refine ⟨some ⟨c, sign, digits⟩, ?_, ?_, ?_⟩
                · rintro e ⟨⟩
                  exact ⟨letter, isSign, all, by simpa using nonempty⟩
                · simp [NumeralSpelling.exponentValue, ExponentSpelling.value]
                · simp [NumeralSpelling.exponentText, ExponentSpelling.text]

theorem spelling_of_scan {n : Numeral} (scanned : scan cs = some (n, rest)) :
    ∃ p : NumeralSpelling, p.IsNumeral ∧ p.numeral = n ∧ cs = p.text ++ rest := by
  unfold scan at scanned
  cases atSign : scanSign cs with
  | mk negative cs₁ =>
  cases atWhole : splitDigits cs₁ with
  | mk whole cs₂ =>
  cases atPlaces : scanFraction cs₂ with
  | mk fraction cs₃ =>
  cases atExponent : scanExponent cs₃ with
  | mk value cs₄ =>
  simp only [atSign, atWhole, atPlaces, atExponent] at scanned
  split at scanned
  case isTrue => contradiction
  case isFalse nonempty =>
    obtain ⟨rfl, rfl⟩ := Prod.mk.inj (Option.some.inj scanned)
    obtain ⟨sign, isSign, rfl, rfl⟩ := sign_of_scanSign atSign
    obtain ⟨allWhole, rfl⟩ := digits_of_splitDigits atWhole
    obtain ⟨places, allPlaces, rfl, rfl⟩ := places_of_scanFraction atPlaces
    obtain ⟨exponent, wellFormed, rfl, rfl⟩ := exponent_of_scanExponent atExponent
    refine ⟨⟨sign, whole, places, exponent⟩, ⟨isSign, allWhole, allPlaces, ?_, wellFormed⟩, rfl, ?_⟩
    · by_contra none
      simp_all
    · simp [NumeralSpelling.text]

theorem splitDigits_suffix (cs : List Char) : (splitDigits cs).2 <:+ cs :=
  List.dropWhile_suffix _

theorem scanFraction_suffix (cs : List Char) : (scanFraction cs).2 <:+ cs := by
  obtain ⟨places, -, -, split⟩ := places_of_scanFraction (Prod.mk.eta (p := scanFraction cs))
  exact ⟨_, split.symm⟩

theorem scanExponent_suffix (cs : List Char) : (scanExponent cs).2 <:+ cs := by
  obtain ⟨exponent, -, -, split⟩ := exponent_of_scanExponent (Prod.mk.eta (p := scanExponent cs))
  exact ⟨_, split.symm⟩

/-! ### A numeral in front is taken -/

theorem scanSign_append {sign : List Char} (isSign : IsSign sign)
    (ahead : ∀ c ∈ rest.head?, c ≠ '+' ∧ c ≠ '-') :
    scanSign (sign ++ rest) = (decide (sign = ['-']), rest) := by
  obtain rfl | rfl | rfl := isSign
  · cases rest with
    | nil => rfl
    | cons c cs =>
        obtain ⟨plus, minus⟩ := ahead c rfl
        rw [List.nil_append]
        unfold scanSign
        split <;> simp_all
  · rfl
  · rfl

/-- Digits in front are taken together with those that follow. -/
theorem splitDigits_digits_append {digits : List Char} (all : ∀ c ∈ digits, c.isDigit)
    (rest : List Char) :
    splitDigits (digits ++ rest) = (digits ++ (splitDigits rest).1, (splitDigits rest).2) := by
  unfold splitDigits
  rw [List.takeWhile_append_of_pos all, List.dropWhile_append_of_pos all]

theorem noSign_of_digits {digits : List Char} (all : ∀ c ∈ digits, c.isDigit)
    (nonempty : digits ≠ []) (rest : List Char) :
    ∀ c ∈ (digits ++ rest).head?, c ≠ '+' ∧ c ≠ '-' := by
  obtain ⟨c, cs, rfl⟩ := List.exists_cons_of_ne_nil nonempty
  rintro _ ⟨⟩
  have digit := all c List.mem_cons_self
  exact ⟨Json.isDigit_ne digit (by decide), Json.isDigit_ne digit (by decide)⟩

/-- An exponent in front is taken, with all digits that follow it. -/
theorem scanExponent_text {e : ExponentSpelling} (wellFormed : e.IsWellFormed) (rest : List Char) :
    scanExponent (e.text ++ rest)
      = (({ e with digits := e.digits ++ (splitDigits rest).1 } : ExponentSpelling).value,
        (splitDigits rest).2) := by
  obtain ⟨letter, sign, digits⟩ := e
  obtain ⟨isLetter, isSign, all, nonempty⟩ := wellFormed
  dsimp only at isLetter isSign all nonempty
  have atSign := scanSign_append isSign (noSign_of_digits all nonempty rest)
  have some_digit : (digits ++ (splitDigits rest).1).isEmpty = false := by simp [nonempty]
  rw [ExponentSpelling.text, List.cons_append, List.append_assoc, scanExponent, if_pos isLetter]
  simp [atSign, splitDigits_digits_append all, some_digit, ExponentSpelling.value]

theorem scanExponent_of_none (ahead : ∀ c ∈ rest.head?, c ≠ 'e' ∧ c ≠ 'E') :
    scanExponent rest = (0, rest) := by
  cases rest with
  | nil => rfl
  | cons c cs =>
      obtain ⟨small, capital⟩ := ahead c rfl
      simp [scanExponent, small, capital]

/-- The scanner takes its parts one after the other. -/
theorem scan_of_parts {negative : Bool} {whole fraction cs₁ cs₂ cs₃ : List Char}
    (atSign : scanSign cs = (negative, cs₁)) (atWhole : splitDigits cs₁ = (whole, cs₂))
    (atPlaces : scanFraction cs₂ = (fraction, cs₃)) (some_digit : whole ≠ [] ∨ fraction ≠ []) :
    scan cs = some (⟨negative, ⟨digitsValue (whole ++ fraction),
      (scanExponent cs₃).1 - fraction.length⟩⟩, (scanExponent cs₃).2) := by
  have nonempty : (whole.isEmpty && fraction.isEmpty) = false := by
    simpa [← Bool.not_eq_true, or_iff_not_imp_left] using some_digit
  unfold scan
  simp only [atSign, atWhole, atPlaces, nonempty, Bool.false_eq_true, ↓reduceIte]

theorem scanFraction_of_none (ahead : ∀ c ∈ rest.head?, c ≠ '.') :
    scanFraction rest = ([], rest) := by
  unfold scanFraction
  split
  · exact absurd rfl (ahead '.' rfl)
  · rfl

end Numeral

namespace NumeralSpelling
open Numeral
variable {p : NumeralSpelling} {rest : List Char}

/-- Behind its sign a numeral starts with a digit or with the point. -/
theorem IsNumeral.exists_front (numeral : p.IsNumeral) (rest : List Char) :
    ∃ c cs, p.whole ++ (placesText p.places ++ rest) = c :: cs ∧ (c.isDigit ∨ c = '.') := by
  obtain ⟨sign, whole, places, exponent⟩ := p
  cases whole with
  | cons c cs => exact ⟨c, _, rfl, .inl (numeral.whole c List.mem_cons_self)⟩
  | nil =>
      cases places with
      | none => exact absurd numeral.nonempty (by simp)
      | some digits => exact ⟨'.', _, rfl, .inr rfl⟩

/-- No sign can be where the sign of a numeral is not. -/
theorem IsNumeral.scanSign (numeral : p.IsNumeral) (rest : List Char) :
    scanSign (p.text ++ rest) = (decide (p.sign = ['-']),
      p.whole ++ (placesText p.places ++ (exponentText p.exponent ++ rest))) := by
  obtain ⟨c, cs, front, first⟩ := numeral.exists_front (exponentText p.exponent ++ rest)
  rw [text, List.append_assoc, List.append_assoc, List.append_assoc]
  apply scanSign_append numeral.sign
  rw [front]
  rintro _ ⟨⟩
  obtain digit | rfl := first
  · exact ⟨Json.isDigit_ne digit (by decide), Json.isDigit_ne digit (by decide)⟩
  · decide

theorem noDigitAhead_places (places : Option (List Char)) (ahead : NoDigitAhead rest) :
    NoDigitAhead (placesText places ++ rest) := by
  cases places with
  | none => exact ahead
  | some digits =>
      rintro _ ⟨⟩
      decide

/-- Where no digit and no point follows, the digits of a numeral are taken and the exponent is
left. -/
theorem IsNumeral.scan_of_exponent (numeral : p.IsNumeral)
    (ahead : ∀ c ∈ (exponentText p.exponent ++ rest).head?, c.isDigit = false ∧ c ≠ '.') :
    scan (p.text ++ rest)
      = some (⟨p.sign = ['-'], ⟨digitsValue (p.whole ++ p.places.getD []),
          (scanExponent (exponentText p.exponent ++ rest)).1 - (p.places.getD []).length⟩⟩,
        (scanExponent (exponentText p.exponent ++ rest)).2) := by
  have digit : NoDigitAhead (exponentText p.exponent ++ rest) := fun c first => (ahead c first).1
  have atWhole := splitDigits_append numeral.whole (noDigitAhead_places p.places digit)
  have atPlaces : scanFraction (placesText p.places ++ (exponentText p.exponent ++ rest))
      = (p.places.getD [], exponentText p.exponent ++ rest) := by
    have all := numeral.places
    cases atPoint : p.places with
    | none => exact scanFraction_of_none fun c first => (ahead c first).2
    | some digits =>
        rw [atPoint] at all
        exact splitDigits_append all digit
  exact scan_of_parts (numeral.scanSign rest) atWhole atPlaces numeral.nonempty

theorem ahead_of_exponent {e : ExponentSpelling} (wellFormed : e.IsWellFormed) (rest : List Char) :
    ∀ c ∈ (e.text ++ rest).head?, c.isDigit = false ∧ c ≠ '.' := by
  rintro _ ⟨⟩
  obtain letter | letter := wellFormed.letter
  · rw [letter]
    decide
  · rw [letter]
    decide

/-- A numeral is taken whole where nothing follows that could go on a numeral. -/
theorem IsNumeral.scan_append (numeral : p.IsNumeral) (ahead : Json.NoNumeralAhead rest) :
    scan (p.text ++ rest) = some (p.numeral, rest) := by
  have wellFormed := numeral.exponent
  have scanned : scanExponent (exponentText p.exponent ++ rest)
      = (exponentValue p.exponent, rest) := by
    cases atExponent : p.exponent with
    | none => exact scanExponent_of_none fun c first => (ahead c first).2.2
    | some e =>
        have stops : splitDigits ([] ++ rest) = ([], rest) :=
          splitDigits_append (by simp) ahead.noDigitAhead
        rw [List.nil_append] at stops
        have atText := scanExponent_text (wellFormed e atExponent) rest
        rw [stops, List.append_nil] at atText
        exact atText
  have before : ∀ c ∈ (exponentText p.exponent ++ rest).head?, c.isDigit = false ∧ c ≠ '.' := by
    cases atExponent : p.exponent with
    | none => exact fun c first => ⟨(ahead c first).1, (ahead c first).2.1⟩
    | some e => exact ahead_of_exponent (wellFormed e atExponent) rest
  rw [numeral.scan_of_exponent before, scanned, NumeralSpelling.numeral]

/-- A numeral by itself. -/
theorem IsNumeral.scan (numeral : p.IsNumeral) : scan p.text = some (p.numeral, []) := by
  have alone := numeral.scan_append Json.noNumeralAhead_nil
  rwa [List.append_nil] at alone

/-- At least a numeral that stands in front is taken, whatever follows. -/
theorem IsNumeral.scan_front (numeral : p.IsNumeral) (rest : List Char) :
    ∃ n left, Numeral.scan (p.text ++ rest) = some (n, left) ∧ left <:+ rest := by
  cases atExponent : p.exponent with
  | some e =>
      -- nothing but digits can go on an exponent
      have wellFormed := numeral.exponent e atExponent
      have before := ahead_of_exponent wellFormed rest
      have taken := numeral.scan_of_exponent (by rwa [atExponent])
      rw [atExponent, exponentText, scanExponent_text wellFormed] at taken
      exact ⟨_, _, taken, splitDigits_suffix rest⟩
  | none =>
      -- digits may go on the numeral, and a point or an exponent behind them
      have atSign := numeral.scanSign rest
      have nonempty := numeral.nonempty
      have all := numeral.places
      rw [atExponent] at atSign
      cases atPlaces : p.places with
      | some digits =>
          rw [atPlaces] at atSign all nonempty
          have point : NoDigitAhead ('.' :: (digits ++ rest)) := by
            rintro _ ⟨⟩
            decide
          have atPoint := splitDigits_append numeral.whole point
          have some_digit : p.whole ≠ [] ∨ digits ++ (splitDigits rest).1 ≠ [] :=
            nonempty.imp_right fun present => by simp [show digits ≠ [] from present]
          exact ⟨_, _, scan_of_parts atSign atPoint (splitDigits_digits_append all rest) some_digit,
            (scanExponent_suffix _).trans (splitDigits_suffix rest)⟩
      | none =>
          rw [atPlaces] at atSign nonempty
          have present : p.whole ≠ [] := by simpa using nonempty
          exact ⟨_, _, scan_of_parts atSign (splitDigits_digits_append numeral.whole rest) rfl
              (.inl (by simp [present])),
            (scanExponent_suffix _).trans
              ((scanFraction_suffix _).trans (splitDigits_suffix rest))⟩

/-- A text that is a numeral is one in one way, as far as the number goes. -/
theorem IsNumeral.numeral_eq {q : NumeralSpelling} (numeral : p.IsNumeral) (other : q.IsNumeral)
    (same : p.text = q.text) : p.numeral = q.numeral := by
  have scanned := numeral.scan
  rw [same, other.scan] at scanned
  exact (Prod.mk.inj (Option.some.inj scanned)).1.symm

end NumeralSpelling

namespace Numeral
open NumeralSpelling
variable {cs rest : List Char}

/-- The scanner takes the longest numeral at the front of a text. -/
theorem scan_eq_some_iff {n : Numeral} :
    scan cs = some (n, rest) ↔
      ∃ p : NumeralSpelling, p.IsLongestIn cs rest ∧ p.numeral = n := by
  constructor
  · intro scanned
    obtain ⟨p, numeral, denotes, front⟩ := spelling_of_scan scanned
    refine ⟨p, ⟨numeral, front, ?_⟩, denotes⟩
    rintro q rest' other rfl
    obtain ⟨n', left, taken, short⟩ := other.scan_front rest'
    rw [scanned] at taken
    obtain ⟨-, rfl⟩ := Prod.mk.inj (Option.some.inj taken)
    have lengths := congrArg List.length front
    have fewer := short.length_le
    simp only [List.length_append] at lengths
    omega
  · rintro ⟨p, ⟨numeral, rfl, longest⟩, rfl⟩
    obtain ⟨n, left, scanned, short⟩ := numeral.scan_front rest
    obtain ⟨q, other, rfl, front⟩ := spelling_of_scan scanned
    -- the numeral that is taken is no shorter than this one, and no longer either
    have lengths := congrArg List.length front
    have fewer := short.length_le
    have most := longest q left other front
    simp only [List.length_append] at lengths
    obtain ⟨same, rfl⟩ := List.append_inj front (by omega)
    rw [scanned, numeral.numeral_eq other same]

/-- A text is one numeral exactly if it is spelled like one. -/
theorem isNumeral_iff : isNumeral cs = true ↔ ∃ p : NumeralSpelling, p.IsNumeral ∧ p.text = cs := by
  unfold isNumeral
  constructor
  · intro whole
    split at whole
    case h_1 n scanned =>
      obtain ⟨p, numeral, -, front⟩ := spelling_of_scan scanned
      exact ⟨p, numeral, by rw [front, List.append_nil]⟩
    case h_2 => contradiction
  · rintro ⟨p, numeral, rfl⟩
    rw [numeral.scan]

end Numeral

end CircuitNetlist
