import CircuitNetlist.Proofs.NetlistNames
import Mathlib.Data.List.TakeWhile

/-!
# Netlist names as words

A netlist name is made of ASCII letters, digits and underscores, one for each character behind the
last dot of the module's name. Such words are left as they are, so a netlist name is its own netlist
name. Where nothing stands behind the last dot, nothing is left of the name, and the definition is
written without one.
-/
namespace CircuitNetlist

/-- ASCII letters, digits and the underscore. -/
def IsWordLetter (c : Char) : Prop :=
  ('a' ≤ c ∧ c ≤ 'z') ∨ ('A' ≤ c ∧ c ≤ 'Z') ∨ ('0' ≤ c ∧ c ≤ '9') ∨ c = '_'

/-- The name is a word that a netlist can have as a name. -/
structure IsWord (name : String) : Prop where
  nonempty : name ≠ ""
  letters : ∀ c ∈ name.toList, IsWordLetter c

theorem isWordChar_iff {c : Char} : isWordChar c = true ↔ IsWordLetter c := by
  unfold isWordChar IsWordLetter Char.isAlphanum Char.isAlpha Char.isUpper Char.isLower Char.isDigit
  simp only [Bool.or_eq_true, Bool.and_eq_true, decide_eq_true_eq, ge_iff_le, Char.le_def]
  tauto

/-! ### Behind the last dot -/

/-- What stands behind the last dot of a text, which is all of it where there is no dot. -/
def IsBehindLastDot (cs rest : List Char) : Prop :=
  '.' ∉ rest ∧ (cs = rest ∨ ∃ front, cs = front ++ '.' :: rest)

theorem isBehindLastDot_afterLastDot (cs : List Char) : IsBehindLastDot cs (afterLastDot cs) := by
  have split := List.takeWhile_append_dropWhile (p := (· ≠ '.')) (l := cs.reverse)
  have whole : cs = (cs.reverse.dropWhile (· ≠ '.')).reverse ++ afterLastDot cs := by
    rw [afterLastDot, ← List.reverse_append, split, List.reverse_reverse]
  refine ⟨?_, ?_⟩
  · intro dot
    rw [afterLastDot, List.mem_reverse] at dot
    simpa using List.mem_takeWhile_imp dot
  · cases front : cs.reverse.dropWhile (· ≠ '.') with
    | nil =>
        left
        rw [front] at whole
        exact whole
    | cons c front' =>
        right
        have dot : c = '.' := by
          have first := List.head?_dropWhile_not (· ≠ '.') cs.reverse
          rw [front] at first
          simpa using first
        rw [front, List.reverse_cons, dot] at whole
        exact ⟨front'.reverse, by simpa using whole⟩

theorem afterLastDot_eq_iff {cs rest : List Char} :
    afterLastDot cs = rest ↔ IsBehindLastDot cs rest := by
  constructor
  · rintro rfl
    exact isBehindLastDot_afterLastDot cs
  · rintro ⟨none, behind⟩
    have apart : ∀ c ∈ rest.reverse, decide (c ≠ '.') = true := by
      intro c mem
      rw [decide_eq_true_iff]
      rintro rfl
      exact none (List.mem_reverse.mp mem)
    have all : rest.reverse.takeWhile (· ≠ '.') = rest.reverse :=
      List.takeWhile_eq_self_iff.mpr apart
    rw [afterLastDot]
    obtain rfl | ⟨front, rfl⟩ := behind
    · rw [all, List.reverse_reverse]
    · rw [List.reverse_append, List.reverse_cons, List.append_assoc,
        List.takeWhile_append_of_pos apart]
      simp

/-! ### Netlist names -/

theorem toList_sanitize (name : String) :
    (sanitize name).toList
      = (afterLastDot name.toList).map fun c => if isWordChar c then c else '_' :=
  String.toList_ofList

theorem isWordLetter_of_mem_sanitize {name : String} {c : Char} (mem : c ∈ (sanitize name).toList) :
    IsWordLetter c := by
  rw [toList_sanitize] at mem
  obtain ⟨old, -, rfl⟩ := List.mem_map.mp mem
  split
  case isTrue letter => exact isWordChar_iff.mp letter
  case isFalse => exact .inr (.inr (.inr rfl))

/-- What is made of the letters of words is its own netlist name. -/
theorem sanitize_of_letters {name : String} (letters : ∀ c ∈ name.toList, IsWordLetter c) :
    sanitize name = name := by
  have undotted : '.' ∉ name.toList := by
    intro dot
    exact absurd (isWordChar_iff.mpr (letters '.' dot)) (by decide)
  have whole : afterLastDot name.toList = name.toList :=
    afterLastDot_eq_iff.mpr ⟨undotted, .inl rfl⟩
  have kept : ∀ c ∈ name.toList, (if isWordChar c then c else '_') = c := by
    intro c mem
    rw [if_pos (isWordChar_iff.mpr (letters c mem))]
  rw [sanitize, whole, List.map_congr_left kept, List.map_id', String.ofList_toList]

theorem sanitize_sanitize (name : String) : sanitize (sanitize name) = sanitize name :=
  sanitize_of_letters fun _ => isWordLetter_of_mem_sanitize

/-- Nothing is left only of a name that has nothing behind its last dot. -/
theorem sanitize_ne_empty_iff {name : String} :
    sanitize name ≠ "" ↔ ∃ front last, name.toList = front ++ [last] ∧ last ≠ '.' := by
  have empty : sanitize name = "" ↔ afterLastDot name.toList = [] := by
    rw [← String.toList_inj, toList_sanitize, String.toList_empty, List.map_eq_nil_iff]
  rw [Ne, empty, afterLastDot_eq_iff]
  constructor
  · intro something
    obtain none | ⟨front, last, split⟩ := name.toList.eq_nil_or_concat
    · exact absurd ⟨List.not_mem_nil, .inl none⟩ something
    · refine ⟨front, last, by rw [split, List.concat_eq_append], ?_⟩
      rintro rfl
      exact something ⟨List.not_mem_nil, .inr ⟨front, by rw [split, List.concat_eq_append]⟩⟩
  · rintro ⟨front, last, split, apart⟩ ⟨-, none | ⟨before, dotted⟩⟩
    · rw [split] at none
      simp at none
    · rw [split] at dotted
      have ends := (List.append_inj' dotted rfl).2
      exact apart (List.singleton_inj.mp ends)

/-- A definition starts with the netlist name of its module, which is made of the letters of words.
It is a word exactly if something stands behind the last dot of the module's name, or in a name
without a dot. Making netlist names keeps netlist names and all other words, and the number of
characters behind the last dot of any name. -/
theorem definition_named_by_word_iff {s inner : Scope} {m : Module} {name : String}
    (defined : s.define m = (.ok name, inner)) :
    (∀ d lines after, (m.script d s).Writes lines after →
      ∃ rest, lines = .text 0 (d.family.definitionKeyword ++ name) :: rest) ∧
    (∀ c ∈ name.toList, IsWordLetter c) ∧
    (IsWord name ↔ ∃ front last, m.name.toList = front ++ [last] ∧ last ≠ '.') ∧
    ∀ other : String, sanitize (sanitize other) = sanitize other ∧
      (IsWord other → sanitize other = other) ∧
      ∃ rest, IsBehindLastDot other.toList rest ∧ (sanitize other).length = rest.length := by
  obtain rfl := (Scope.define_eq_ok.mp defined).1
  refine ⟨?_, fun _ => isWordLetter_of_mem_sanitize, ?_, ?_⟩
  · intro d lines after written
    obtain ⟨inner', name', t, opening, body, w, rfl⟩ := Module.writes_script.mp written
    obtain ⟨rest, rfl⟩ := Module.headline_of_written w
    exact ⟨_, by rw [List.append_assoc]; rfl⟩
  · rw [← sanitize_ne_empty_iff]
    exact ⟨IsWord.nonempty, fun something => ⟨something, fun _ => isWordLetter_of_mem_sanitize⟩⟩
  · intro other
    refine ⟨sanitize_sanitize other, fun word => sanitize_of_letters word.letters, ?_⟩
    refine ⟨_, isBehindLastDot_afterLastDot other.toList, ?_⟩
    rw [← String.length_toList, toList_sanitize, List.length_map]

/-- A name with dots, a blank and a letter that is not ASCII. -/
def accentedCell : Module := { name := "lib.v2.pré-amp 1" }

theorem definition_named_by_word_iff_accented :
    ∃ inner, Scope.empty.define accentedCell = (.ok "pr__amp_1", inner) ∧ IsWord "pr__amp_1" := by
  have defined : Scope.empty.define accentedCell = (.ok "pr__amp_1", _) := rfl
  obtain ⟨-, -, word, -⟩ := definition_named_by_word_iff defined
  exact ⟨_, defined, word.mpr ⟨"lib.v2.pré-amp ".toList, '1', by decide, by decide⟩⟩

/-- A name that ends in a dot. -/
def namelessCell : Module := { name := "cells." }

/-- The module is accepted, and its definition starts with the keyword alone. -/
theorem definition_without_name :
    ∃ inner lines after, Scope.empty.define namelessCell = (.ok "", inner) ∧ ¬ IsWord "" ∧
      (namelessCell.script .spice .empty).Writes (.text 0 ".SUBCKT " :: lines) after := by
  refine ⟨_, _, _, rfl, ?_, rfl, rfl⟩
  intro word
  exact word.nonempty rfl

end CircuitNetlist
