import CircuitNetlist.Proofs.NumeralTexts

/-!
# JSON read back

A JSON value whose numbers are canonical is read back from its text in either style. Strings hold
any characters: the pieces of a string are taken apart at its escapes and joined again. The text of
a value decides where the value ends, except for a number, which must not be followed by what could
go on it.
-/
namespace CircuitNetlist.Json

/-! ### Strings -/

/-- The piece that the escape of a character is read as. -/
def Piece.StandsFor (p : Piece) (c : Char) : Prop :=
  p = .char c ∨ p = .unit c.toNat ∧ c.toNat < 0x20

theorem hexValue?_hexDigit {n : Nat} (small : n < 16) : hexValue? (hexDigit n) = some n := by
  revert n
  decide

theorem readPieces_letter {letter c : Char} (escaped : unescape? letter = some c)
    (cs : List Char) : readPieces ('\\' :: letter :: cs)
      = (readPieces cs).map fun read => (.char c :: read.1, read.2) := by
  have other : letter ≠ 'u' := by
    rintro rfl
    simp [unescape?] at escaped
  rw [readPieces]
  · simp [escaped, Option.map_eq_bind]
  · rintro a b c d rest rfl
    contradiction

theorem readPieces_unit {n : Nat} (small : n < 0x20) (cs : List Char) :
    readPieces ('\\' :: 'u' :: '0' :: '0' :: hexDigit (n / 16) :: hexDigit (n % 16) :: cs)
      = (readPieces cs).map fun read => (.unit n :: read.1, read.2) := by
  have high : hexValue? (hexDigit (n / 16)) = some (n / 16) := hexValue?_hexDigit (by omega)
  have low : hexValue? (hexDigit (n % 16)) = some (n % 16) := hexValue?_hexDigit (by omega)
  have zero : hexValue? '0' = some 0 := by decide
  have value : ((0 * 16 + 0) * 16 + n / 16) * 16 + n % 16 = n := by omega
  rw [readPieces]
  simp only [high, low, zero, value, Option.bind_eq_bind, Option.bind_some, Option.map_eq_bind,
    Function.comp_def, Option.pure_def]

theorem readPieces_char {c : Char} (plain : ¬ c.toNat < 0x20) (quote : c ≠ '"') (slash : c ≠ '\\')
    (cs : List Char) : readPieces (c :: cs)
      = (readPieces cs).map fun read => (.char c :: read.1, read.2) := by
  rw [readPieces]
  · rw [if_neg (by simp [plain, slash])]
    simp [Option.map_eq_bind]
  · exact quote
  · exact fun _ _ _ _ _ first => absurd first slash
  · exact fun _ _ first => absurd first slash

/-- An escape is a letter, the code of a control character, or the character itself. -/
theorem escape_cases (c : Char) :
    (∃ letter, escape c = ['\\', letter] ∧ unescape? letter = some c)
      ∨ (c.toNat < 0x20 ∧ escape c
          = ['\\', 'u', '0', '0', hexDigit (c.toNat / 16), hexDigit (c.toNat % 16)])
      ∨ (¬ c.toNat < 0x20 ∧ c ≠ '"' ∧ c ≠ '\\' ∧ escape c = [c]) := by
  unfold escape
  split_ifs with quote slash back feed line carriage tab control
  · exact .inl ⟨_, rfl, by rw [quote]; rfl⟩
  · exact .inl ⟨_, rfl, by rw [slash]; rfl⟩
  · exact .inl ⟨_, rfl, by rw [back]; rfl⟩
  · exact .inl ⟨_, rfl, by rw [feed]; rfl⟩
  · exact .inl ⟨_, rfl, by rw [line]; rfl⟩
  · exact .inl ⟨_, rfl, by rw [carriage]; rfl⟩
  · exact .inl ⟨_, rfl, by rw [tab]; rfl⟩
  · exact .inr (.inl ⟨control, rfl⟩)
  · exact .inr (.inr ⟨control, quote, slash, rfl⟩)

theorem readPieces_escape (c : Char) :
    ∃ p : Piece, p.StandsFor c ∧ ∀ cs, readPieces (escape c ++ cs)
      = (readPieces cs).map fun read => (p :: read.1, read.2) := by
  rcases escape_cases c with ⟨letter, text, escaped⟩ | ⟨control, text⟩ | ⟨plain, quote, slash, text⟩
  · rw [text]
    exact ⟨.char c, .inl rfl, readPieces_letter escaped⟩
  · rw [text]
    exact ⟨.unit c.toNat, .inr ⟨rfl, control⟩, readPieces_unit control⟩
  · rw [text]
    exact ⟨.char c, .inl rfl, readPieces_char plain quote slash⟩

theorem joinPieces_cons {p : Piece} {c : Char} (stands : p.StandsFor c) (ps : List Piece) :
    joinPieces (p :: ps) = (joinPieces ps).map (c :: ·) := by
  rcases stands with rfl | ⟨rfl, control⟩
  · simp [joinPieces, Option.map_eq_bind]
  · have low : c.toNat < 0xD800 := by omega
    cases ps with
    | nil => simp [joinPieces, low]
    | cons q qs =>
      cases q with
      | char d => simp [joinPieces, low, Option.map_eq_bind, Option.bind_assoc]
      | unit v => simp [joinPieces, low, Option.map_eq_bind]

/-- The escapes of a text are read up to the closing quote, and joined to the text. -/
theorem readPieces_flatMap_escape (text rest : List Char) :
    ∃ ps, readPieces (text.flatMap escape ++ '"' :: rest) = some (ps, rest)
      ∧ joinPieces ps = some text := by
  induction text with
  | nil => exact ⟨[], by simp [readPieces], rfl⟩
  | cons c text ih =>
    obtain ⟨ps, read, joined⟩ := ih
    obtain ⟨p, stands, first⟩ := readPieces_escape c
    refine ⟨p :: ps, ?_, ?_⟩
    · rw [List.flatMap_cons, List.append_assoc, first, read]
      rfl
    · rw [joinPieces_cons stands, joined]
      rfl

/-- A string is read back, and so is one without a text. -/
theorem readString_writeString (text : Option String) (rest : List Char) :
    ∃ cs, writeString text ++ rest = '"' :: cs ∧ readString cs = some (text, rest) := by
  cases text with
  | none =>
    exact ⟨_, rfl, by simp [readString, readPieces, hexValue?, joinPieces]⟩
  | some text =>
    obtain ⟨ps, read, joined⟩ := readPieces_flatMap_escape text.toList rest
    refine ⟨text.toList.flatMap escape ++ '"' :: rest, by simp [writeString], ?_⟩
    simp [readString, read, joined]

/-! ### Blanks -/

@[simp]
theorem skipSpace_lineBreak (style : Style) (depth : Nat) (cs : List Char) :
    skipSpace (lineBreak style depth ++ cs) = skipSpace cs := by
  cases style with
  | compact => rfl
  | pretty =>
    have blanks : ∀ c ∈ '\n' :: List.replicate (2 * depth) ' ', isSpace c := by
      intro c found
      rcases List.mem_cons.mp found with rfl | blank
      · rfl
      · rw [List.eq_of_mem_replicate blank]
        rfl
    exact List.dropWhile_append_of_pos blanks

theorem skipSpace_cons {c : Char} (ink : isSpace c = false) (cs : List Char) :
    skipSpace (c :: cs) = c :: cs :=
  List.dropWhile_cons_of_neg (by simp [ink])

/-- The reader starts behind the blanks. -/
theorem readValue_congr {cs ds : List Char} (same : skipSpace cs = skipSpace ds) (fuel : Nat) :
    readValue fuel cs = readValue fuel ds := by
  cases fuel with
  | zero => rfl
  | succ fuel => rw [readValue, readValue, same]

theorem readItems_congr {cs ds : List Char} (same : skipSpace cs = skipSpace ds) (fuel : Nat) :
    readItems fuel cs = readItems fuel ds := by
  cases fuel with
  | zero => rfl
  | succ fuel => rw [readItems, readItems, readValue_congr same]

theorem readFields_congr {cs ds : List Char} (same : skipSpace cs = skipSpace ds) (fuel : Nat) :
    readFields fuel cs = readFields fuel ds := by
  cases fuel with
  | zero => rfl
  | succ fuel => rw [readFields, readFields, same]

/-! ### Values -/

/-- Every number in the value is canonical. -/
inductive IsCanonical : Json → Prop
  | null : IsCanonical .null
  | bool (value : Bool) : IsCanonical (.bool value)
  | number {n : JsonNumber} (canonical : n.IsCanonical) : IsCanonical (.number n)
  | string (text : Option String) : IsCanonical (.string text)
  | array {items : List Json} (all : ∀ item ∈ items, IsCanonical item) : IsCanonical (.array items)
  | object {fields : List (Option String × Json)} (all : ∀ field ∈ fields, IsCanonical field.2) :
    IsCanonical (.object fields)

theorem exists_writeNumber_cons (n : JsonNumber) :
    ∃ c cs, writeNumber n = c :: cs ∧ (c = '-' ∨ c.isDigit) := by
  unfold writeNumber
  dsimp only
  split
  case isTrue => exact ⟨'-', _, rfl, .inl rfl⟩
  case isFalse =>
    split
    case isTrue =>
      obtain ⟨c, cs, digits⟩ := List.exists_cons_of_length_pos
        (Nat.length_toDigits_pos : 0 < (Nat.toDigits 10 n.numeral.decimal.digits).length)
      refine ⟨c, cs, digits, .inr (isDigit_of_mem_toDigits (n := n.numeral.decimal.digits) ?_)⟩
      rw [digits]
      exact List.mem_cons_self
    case isFalse =>
      split
      case isTrue => exact ⟨'0', _, rfl, .inr rfl⟩
      case isFalse nonzero =>
        obtain ⟨p, text, parts, -⟩ := numberLayout.exists_parts nonzero
        obtain ⟨c, cs, whole⟩ := exists_cons_of_validWhole parts.whole_valid
        refine ⟨c, cs ++ _, by rw [text, Layout.text, whole]; rfl, .inr ?_⟩
        exact parts.whole_digits c (by rw [whole]; exact List.mem_cons_self)

theorem isSpace_of_digit {c : Char} (digit : c.isDigit) : isSpace c = false := by
  have blank := isDigit_ne digit (by decide : ' '.isDigit = false)
  have line := isDigit_ne digit (by decide : '\n'.isDigit = false)
  have tab := isDigit_ne digit (by decide : '\t'.isDigit = false)
  have carriage := isDigit_ne digit (by decide : '\r'.isDigit = false)
  simp [isSpace, blank, line, tab, carriage]

/-- The text of a value starts with neither a blank nor a closing bracket. -/
theorem exists_write_cons (style : Style) (depth : Nat) (j : Json) :
    ∃ c cs, write style depth j = c :: cs ∧ isSpace c = false ∧ c ≠ ']' := by
  cases j with
  | null => exact ⟨_, _, by rw [write], by decide, by decide⟩
  | bool value => cases value <;> exact ⟨_, _, by rw [write], by decide, by decide⟩
  | number n =>
    obtain ⟨c, cs, text, first⟩ := exists_writeNumber_cons n
    refine ⟨c, cs, by rw [write, text], ?_⟩
    rcases first with rfl | digit
    · decide
    · exact ⟨isSpace_of_digit digit, isDigit_ne digit (by decide)⟩
  | string text => cases text <;> exact ⟨_, _, by rw [write]; rfl, by decide, by decide⟩
  | array items => cases items <;> exact ⟨_, _, by rw [write], by decide, by decide⟩
  | object fields => cases fields <;> exact ⟨_, _, by rw [write], by decide, by decide⟩

/-- A minus sign or a digit starts a number. -/
theorem readValue_of_number {c : Char} {cs rest : List Char} {n : JsonNumber}
    (first : c = '-' ∨ c.isDigit) (read : readNumber (c :: cs) = some (n, rest)) (fuel : Nat) :
    readValue (fuel + 1) (c :: cs) = some (.number n, rest) := by
  have ink : isSpace c = false := by
    rcases first with rfl | digit
    · decide
    · exact isSpace_of_digit digit
  have other : ∀ d, d ≠ '-' → d.isDigit = false → c ≠ d := by
    rintro d sign nondigit rfl
    rcases first with minus | digit
    · exact sign minus
    · exact isDigit_ne digit nondigit rfl
  rw [readValue, skipSpace_cons ink]
  split
  case h_7 => simp [read]
  all_goals
    rename_i text
    exact absurd (List.cons.inj text).1 (other _ (by decide) (by decide))

/-- The value is read back from its text, given two units of fuel for each of its characters. -/
def ReadsBack (style : Style) (j : Json) : Prop :=
  ∀ depth fuel rest, 2 * (write style depth j).length ≤ fuel → NoNumeralAhead rest →
    readValue fuel (write style depth j ++ rest) = some (j, rest)

theorem noNumeralAhead_lineBreak {style : Style} {depth : Nat} {rest : List Char}
    (ahead : NoNumeralAhead rest) : NoNumeralAhead (lineBreak style depth ++ rest) := by
  cases style with
  | compact => exact ahead
  | pretty => simp [lineBreak, NoNumeralAhead]

/-- One item is read, and then whatever follows it. -/
theorem readItems_step {style : Style} {item : Json} {depth fuel : Nat}
    (value : ReadsBack style item) {tail : List Char} (ahead : NoNumeralAhead tail)
    (enough : 2 * (write style depth item).length ≤ fuel) :
    readItems (fuel + 1) (write style depth item ++ tail)
      = match skipSpace tail with
        | ',' :: rest => (readItems fuel rest).map fun read => (item :: read.1, read.2)
        | ']' :: rest => some ([item], rest)
        | _ => none := by
  rw [readItems, value depth fuel tail enough ahead]
  simp only [Option.bind_eq_bind, Option.bind_some, Option.map_eq_bind]
  rfl

/-- The items are read up to the bracket behind them. -/
theorem readItems_write {style : Style} {item : Json} {items : List Json}
    (all : ∀ i ∈ item :: items, ReadsBack style i) (depth outer : Nat) {fuel : Nat}
    (rest : List Char)
    (enough : 2 * (write style depth item ++ writeItems style depth items).length + 1 ≤ fuel) :
    readItems fuel (write style depth item ++ (writeItems style depth items
        ++ (lineBreak style outer ++ ']' :: rest)))
      = some (item :: items, rest) := by
  induction items generalizing item fuel with
  | nil =>
    cases fuel with
    | zero => omega
    | succ fuel =>
      simp only [List.length_append] at enough
      rw [writeItems, List.nil_append, readItems_step (all item List.mem_cons_self)
        (noNumeralAhead_lineBreak (by simp [NoNumeralAhead])) (by omega), skipSpace_lineBreak,
        skipSpace_cons (by decide)]
      rfl
  | cons second items ih =>
    cases fuel with
    | zero => omega
    | succ fuel =>
      rw [writeItems] at enough ⊢
      simp only [List.length_append, List.length_cons] at enough
      have others := @ih second (fun i found => all i (List.mem_cons_of_mem item found)) fuel
        (by simp only [List.length_append]; omega)
      rw [List.cons_append, readItems_step (all item List.mem_cons_self)
        (by simp [NoNumeralAhead]) (by omega), skipSpace_cons (by decide)]
      simp only [List.append_assoc]
      rw [readItems_congr (skipSpace_lineBreak ..), others]
      rfl

/-- Behind a key and its colon the value is read as it stands. -/
theorem exists_colon (style : Style) (cs : List Char) :
    ∃ ds, colon style ++ cs = ':' :: ds ∧ skipSpace ds = skipSpace cs := by
  cases style with
  | compact => exact ⟨cs, rfl, rfl⟩
  | pretty => exact ⟨' ' :: cs, rfl, rfl⟩

/-- One field is read, and then whatever follows it. -/
theorem readFields_step {style : Style} {field : Option String × Json} {depth fuel : Nat}
    (value : ReadsBack style field.2) {tail : List Char} (ahead : NoNumeralAhead tail)
    (enough : 2 * (write style depth field.2).length ≤ fuel) :
    readFields (fuel + 1)
        (writeString field.1 ++ (colon style ++ (write style depth field.2 ++ tail)))
      = match skipSpace tail with
        | ',' :: rest => (readFields fuel rest).map fun read => (field :: read.1, read.2)
        | '\x7d' :: rest => some ([field], rest)
        | _ => none := by
  obtain ⟨cs, key, read_key⟩ := readString_writeString field.1
    (colon style ++ (write style depth field.2 ++ tail))
  obtain ⟨ds, mark, same⟩ := exists_colon style (write style depth field.2 ++ tail)
  have read_value : readValue fuel ds = some (field.2, tail) := by
    rw [readValue_congr same]
    exact value depth fuel tail enough ahead
  rw [readFields, key, skipSpace_cons (by decide)]
  simp only [read_key, mark, skipSpace_cons (by decide : isSpace ':' = false), read_value,
    Option.bind_eq_bind, Option.bind_some, Option.map_eq_bind]
  rfl

/-- The fields are read up to the brace behind them. -/
theorem readFields_write {style : Style} {field : Option String × Json}
    {fields : List (Option String × Json)} (all : ∀ f ∈ field :: fields, ReadsBack style f.2)
    (depth outer : Nat) {fuel : Nat} (rest : List Char)
    (enough : 2 * (writeString field.1 ++ colon style ++ write style depth field.2
      ++ writeFields style depth fields).length + 1 ≤ fuel) :
    readFields fuel (writeString field.1 ++ (colon style ++ (write style depth field.2
        ++ (writeFields style depth fields ++ (lineBreak style outer ++ '\x7d' :: rest)))))
      = some (field :: fields, rest) := by
  induction fields generalizing field fuel with
  | nil =>
    cases fuel with
    | zero => omega
    | succ fuel =>
      simp only [List.length_append] at enough
      rw [writeFields, List.nil_append, readFields_step (all field List.mem_cons_self)
        (noNumeralAhead_lineBreak (by simp [NoNumeralAhead])) (by omega), skipSpace_lineBreak,
        skipSpace_cons (by decide)]
      rfl
  | cons second fields ih =>
    cases fuel with
    | zero => omega
    | succ fuel =>
      obtain ⟨key, value⟩ := second
      rw [writeFields] at enough ⊢
      simp only [List.length_append, List.length_cons] at enough
      have others := @ih (key, value) (fun f found => all f (List.mem_cons_of_mem field found)) fuel
        (by simp only [List.length_append]; omega)
      rw [List.cons_append, readFields_step (all field List.mem_cons_self)
        (by simp [NoNumeralAhead]) (by omega), skipSpace_cons (by decide)]
      simp only [List.append_assoc]
      rw [readFields_congr (skipSpace_lineBreak ..), others]
      rfl

theorem readsBack_array {style : Style} {items : List Json} (all : ∀ i ∈ items, ReadsBack style i) :
    ReadsBack style (.array items) := by
  intro depth fuel rest enough ahead
  cases fuel with
  | zero => cases items <;> simp [write] at enough
  | succ fuel =>
    cases items with
    | nil => simp [write, readValue, skipSpace_cons (by decide : isSpace '[' = false),
        skipSpace_cons (by decide : isSpace ']' = false)]
    | cons item items =>
      rw [write] at enough ⊢
      simp only [List.length_append, List.length_cons, List.length_nil] at enough
      have read := @readItems_write style item items all (depth + 1) depth fuel rest
        (by rw [List.length_append]; omega)
      obtain ⟨c, cs, text, ink, other⟩ := exists_write_cons style (depth + 1) item
      rw [text, List.cons_append] at read
      rw [readValue, List.cons_append, skipSpace_cons (by decide)]
      simp only [List.append_assoc, skipSpace_lineBreak, text, List.cons_append, List.nil_append,
        skipSpace_cons ink]
      split
      case h_1 closing => exact absurd (List.cons.inj closing).1 other
      case h_2 => simp [read]

theorem readsBack_object {style : Style} {fields : List (Option String × Json)}
    (all : ∀ f ∈ fields, ReadsBack style f.2) : ReadsBack style (.object fields) := by
  intro depth fuel rest enough ahead
  cases fuel with
  | zero => cases fields <;> simp [write] at enough
  | succ fuel =>
    cases fields with
    | nil => simp [write, readValue, skipSpace_cons (by decide : isSpace '\x7b' = false),
        skipSpace_cons (by decide : isSpace '\x7d' = false)]
    | cons field fields =>
      obtain ⟨key, value⟩ := field
      rw [write] at enough ⊢
      simp only [List.length_append, List.length_cons, List.length_nil] at enough
      have read := @readFields_write style (key, value) fields all (depth + 1) depth fuel rest
        (by simp only [List.length_append]; omega)
      obtain ⟨cs, text, -⟩ := readString_writeString key (colon style
        ++ (write style (depth + 1) value ++ (writeFields style (depth + 1) fields
          ++ (lineBreak style depth ++ '\x7d' :: rest))))
      rw [text] at read
      rw [readValue, List.cons_append, skipSpace_cons (by decide)]
      simp only [List.append_assoc, skipSpace_lineBreak, text, List.cons_append, List.nil_append,
        skipSpace_cons (by decide : isSpace '"' = false)]
      simp [read]

theorem IsCanonical.readsBack {j : Json} (canonical : j.IsCanonical) (style : Style) :
    ReadsBack style j := by
  induction canonical with
  | array _ ih => exact readsBack_array ih
  | object _ ih => exact readsBack_object ih
  | null =>
    intro depth fuel rest enough ahead
    rw [write] at enough ⊢
    cases fuel with
    | zero => simp at enough
    | succ fuel => simp [readValue, skipSpace_cons (by decide : isSpace 'n' = false)]
  | bool value =>
    intro depth fuel rest enough ahead
    cases fuel with
    | zero => cases value <;> simp [write] at enough
    | succ fuel =>
      cases value with
      | true => simp [write, readValue, skipSpace_cons (by decide : isSpace 't' = false)]
      | false => simp [write, readValue, skipSpace_cons (by decide : isSpace 'f' = false)]
  | @number n canonical =>
    intro depth fuel rest enough ahead
    obtain ⟨c, cs, text, first⟩ := exists_writeNumber_cons n
    have read := readNumber_writeNumber canonical ahead
    rw [write, text] at enough ⊢
    rw [text] at read
    cases fuel with
    | zero => simp at enough
    | succ fuel => exact readValue_of_number first read fuel
  | string text =>
    intro depth fuel rest enough ahead
    obtain ⟨cs, start, read⟩ := readString_writeString text rest
    rw [write] at enough ⊢
    cases fuel with
    | zero => cases text <;> simp [writeString] at enough
    | succ fuel =>
      rw [start, readValue, skipSpace_cons (by decide)]
      simp [read]

/-- A canonical value is read back from its text in either style. -/
theorem parse?_write {j : Json} (canonical : j.IsCanonical) (style : Style) :
    parse? (String.ofList (j.write style 0)) = some j := by
  have read := canonical.readsBack style 0 (2 * (j.write style 0).length + 2) [] (by omega)
    (by simp [NoNumeralAhead])
  rw [List.append_nil] at read
  rw [parse?, String.toList_ofList]
  simp only [read, Option.bind_eq_bind, Option.bind_some]
  exact if_pos rfl

end CircuitNetlist.Json
