import Mathlib.Data.List.Nodup
import CircuitNetlist.Parameter.Table

/-!
# Laws of parameter tables

A table is seen through two views: the names in order, and what is found under each name. Every
operation has one equation for each view.
-/
namespace CircuitNetlist.ParamTable

/-! ### The names in order -/

theorem contains_iff (t : ParamTable) (name : String) : t.contains name ↔ name ∈ t.names := by
  simp [contains]

@[simp] theorem names_erase (t : ParamTable) (name : String) :
    (t.erase name).names = t.names.filter (· != name) := by
  simp [names, erase, List.filter_map, Function.comp_def]

/-- A name that is there keeps its place, and a new one comes last. -/
theorem names_set (t : ParamTable) (name : String) (text : ValueText) :
    (t.set name text).names = if name ∈ t.names then t.names else t.names ++ [name] := by
  have same : ∀ entry : String × ValueText,
      (if entry.1 = name then (name, text) else entry).1 = entry.1 := by
    intro entry
    by_cases h : entry.1 = name <;> simp [h]
  by_cases h : name ∈ t.names
  · rw [set, if_pos (by simpa [contains] using h), if_pos h]
    simp [names, same]
  · rw [set, if_neg (by simpa [contains] using h), if_neg h]
    simp [names]

/-- Without its own old entry, a name stands exactly where it was put. -/
theorem names_insertAt (t : ParamTable) (index : Nat) (name : String) (text : ValueText) :
    (t.insertAt index name text).names
      = (t.erase name).names.take index ++ name :: (t.erase name).names.drop index := by
  simp [insertAt, names, List.map_take, List.map_drop]

/-! ### What is found under a name -/

theorem get?_cons (entry : String × ValueText) (entries : List (String × ValueText))
    (name : String) :
    (mk (entry :: entries)).get? name
      = if name = entry.1 then some entry.2 else (mk entries).get? name := by
  obtain ⟨key, text⟩ := entry
  by_cases h : name = key
  · simp [get?, h]
  · simp [get?, List.lookup_cons, beq_false_of_ne h, h]

theorem get?_eq_none_iff (t : ParamTable) (name : String) :
    t.get? name = none ↔ name ∉ t.names := by
  obtain ⟨entries⟩ := t
  induction entries with
  | nil => simp [get?, names]
  | cons entry entries ih =>
    simp only [names, List.map_cons, List.mem_cons, get?_cons] at ih ⊢
    by_cases h : name = entry.1 <;> simp [h, ih]

/-- Taking a name out leaves what is found under the others. -/
theorem get?_erase (t : ParamTable) (name other : String) :
    (t.erase name).get? other = if other = name then none else t.get? other := by
  obtain ⟨entries⟩ := t
  simp only [erase]
  induction entries with
  | nil => simp [get?]
  | cons entry entries ih =>
    by_cases h : entry.1 = name
    · simp only [List.filter_cons, h, bne_self_eq_false, Bool.false_eq_true, ↓reduceIte, ih,
        get?_cons]
      by_cases h' : other = name <;> simp [h']
    · simp only [List.filter_cons, bne_iff_ne, ne_eq, h, not_false_eq_true, ↓reduceIte, ih,
        get?_cons]
      by_cases h' : other = name <;> simp [h', Ne.symm h]

theorem get?_append (entries more : List (String × ValueText)) (name : String) :
    (mk (entries ++ more)).get? name = ((mk entries).get? name).or ((mk more).get? name) := by
  simp [get?, List.lookup_append]

theorem get?_replace (entries : List (String × ValueText)) (name other : String)
    (text : ValueText) :
    (mk (entries.map fun entry => if entry.1 = name then (name, text) else entry)).get? other
      = if other = name then ((mk entries).get? name).map fun _ => text
        else (mk entries).get? other := by
  induction entries with
  | nil => simp [get?]
  | cons entry entries ih =>
    simp only [List.map_cons, get?_cons, ih]
    by_cases h : entry.1 = name
    · by_cases h' : other = name <;> simp [h, h']
    · by_cases h' : other = name
      · simp [h, h', Ne.symm h]
      · simp [h, h']

/-- The text stored last is the one that is found, and no other name is affected. -/
theorem get?_set (t : ParamTable) (name other : String) (text : ValueText) :
    (t.set name text).get? other = if other = name then some text else t.get? other := by
  by_cases h : name ∈ t.names
  · obtain ⟨found, h'⟩ := Option.ne_none_iff_exists'.1
      fun absent => (t.get?_eq_none_iff name).1 absent h
    rw [set, if_pos ((t.contains_iff name).2 h), get?_replace, h', Option.map_some]
  · rw [set, if_neg (mt (t.contains_iff name).1 h), get?_append, get?_cons]
    by_cases h1 : other = name
    · simp [h1, (t.get?_eq_none_iff name).2 h]
    · simp [h1, get?]

/-- The text that was put is the one that is found, and no other name is affected. -/
theorem get?_insertAt (t : ParamTable) (index : Nat) (name other : String) (text : ValueText) :
    (t.insertAt index name text).get? other
      = if other = name then some text else t.get? other := by
  have split := get?_append ((t.erase name).entries.take index)
    ((t.erase name).entries.drop index) other
  rw [List.take_append_drop, show (mk (t.erase name).entries) = t.erase name from rfl,
    get?_erase] at split
  rw [insertAt, get?_append, get?_cons]
  by_cases h : other = name
  · rw [if_pos h] at split
    simp [h, h ▸ (Option.or_eq_none_iff.1 split.symm).1]
  · simpa [h] using split.symm

/-- The text under a name moves to the new name, whatever stood there. -/
theorem get?_rename {t : ParamTable} {source : String} {text : ValueText}
    (found : t.get? source = some text) (target other : String) :
    (t.rename source target).get? other
      = if other = target then some text else if other = source then none else t.get? other := by
  have there : source ∈ t.names := by
    by_contra absent
    rw [(t.get?_eq_none_iff source).2 absent] at found
    cases found
  obtain ⟨index, place⟩ : ∃ index, t.indexOf? source = some index :=
    Option.isSome_iff_exists.1 (List.isSome_idxOf?.2 there)
  rw [rename, place, found]
  simp only [get?_insertAt, get?_erase]

/-! ### Distinct names -/

theorem nodup_set {t : ParamTable} (distinct : t.names.Nodup) (name : String) (text : ValueText) :
    (t.set name text).names.Nodup := by
  rw [names_set]
  by_cases known : name ∈ t.names
  · rw [if_pos known]
    exact distinct
  · rw [if_neg known, ← List.concat_eq_append]
    exact distinct.concat known

theorem nodup_erase {t : ParamTable} (distinct : t.names.Nodup) (name : String) :
    (t.erase name).names.Nodup := by
  rw [names_erase]
  exact distinct.filter _

theorem nodup_insertAt {t : ParamTable} (distinct : t.names.Nodup) (index : Nat) (name : String)
    (text : ValueText) : (t.insertAt index name text).names.Nodup := by
  have gone : name ∉ (t.erase name).names := by simp
  have middle : ((t.erase name).names.take index
      ++ name :: (t.erase name).names.drop index).Perm
        (name :: ((t.erase name).names.take index ++ (t.erase name).names.drop index)) :=
    List.perm_middle
  rw [List.take_append_drop] at middle
  rw [names_insertAt, middle.nodup_iff]
  exact List.nodup_cons.2 ⟨gone, nodup_erase distinct name⟩

theorem nodup_rename {t : ParamTable} (distinct : t.names.Nodup) (source target : String) :
    (t.rename source target).names.Nodup := by
  unfold rename
  split
  · exact nodup_insertAt (nodup_erase distinct source) _ _ _
  · exact distinct

/-- Among distinct names, what is found under a name is all that is stored under it. -/
theorem filter_entries {t : ParamTable} (distinct : t.names.Nodup) (name : String) :
    t.entries.filter (·.1 == name) = ((t.get? name).map fun text => (name, text)).toList := by
  obtain ⟨entries⟩ := t
  induction entries with
  | nil => rfl
  | cons entry entries ih =>
    obtain ⟨fresh, distinct⟩ := List.nodup_cons.1 distinct
    have rest := ih distinct
    rw [get?_cons]
    by_cases same : name = entry.1
    · have gone := ((mk entries).get?_eq_none_iff entry.1).2 fresh
      rw [same, gone] at rest
      subst same
      simpa using rest
    · rw [if_neg same, ← rest]
      have other : (entry.1 == name) = false := beq_false_of_ne (Ne.symm same)
      simp [other]

end CircuitNetlist.ParamTable
