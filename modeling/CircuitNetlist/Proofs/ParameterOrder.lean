import Mathlib.Data.List.Basic
import CircuitNetlist.Proofs.ParameterMerge

/-!
# In which order parameters are written

A table that names are stored in one after the other holds every name at the place of its first
occurrence. So the merged parameters of an instance start with what its target declares, in declared
order, and the overrides that are passed on come behind, in the order in which they were given. A
rename moves nothing: the entry gets its new name where it stands.
-/
namespace CircuitNetlist

/-! ### First occurrences -/

section FirstOccurrences
variable {α : Type} [BEq α] [LawfulBEq α]

theorem eraseDups_of_nodup {xs : List α} (distinct : xs.Nodup) : xs.eraseDups = xs := by
  induction xs with
  | nil => rfl
  | cons x xs ih =>
      rw [List.nodup_cons] at distinct
      have others : xs.filter (fun y => !y == x) = xs :=
        List.filter_bne_eq_self_of_not_mem distinct.1
      rw [List.eraseDups_cons, others, ih distinct.2]

/-- What is there already is left out behind it. -/
theorem eraseDups_append_cons_of_mem {x : α} {xs : List α} (mem : x ∈ xs) (ys : List α) :
    (xs ++ x :: ys).eraseDups = (xs ++ ys).eraseDups := by
  have known : xs.contains x = true := List.elem_eq_true_of_mem mem
  rw [List.eraseDups_append, List.eraseDups_append, List.cons_removeAll, known]
  rfl

end FirstOccurrences

/-! ### Places in the order -/

namespace ParamTable
variable {t : ParamTable}

theorem indexOf?_of_split {name : String} {front back : List String}
    (split : t.names = front ++ name :: back) (fresh : name ∉ front) :
    t.indexOf? name = some front.length := by
  rw [indexOf?, split]
  clear split
  induction front with
  | nil => simp [List.idxOf?_cons]
  | cons other front ih =>
      rw [List.mem_cons, not_or] at fresh
      simp [List.idxOf?_cons, Ne.symm fresh.1, ih fresh.2]

/-- Among distinct names, one stands neither in front of itself nor behind. -/
theorem not_mem_of_split {name : String} {front back : List String}
    (split : t.names = front ++ name :: back) (distinct : t.names.Nodup) :
    name ∉ front ∧ name ∉ back := by
  rw [split, List.nodup_middle, List.nodup_cons, List.mem_append, not_or] at distinct
  exact distinct.1

theorem names_erase_of_split {name : String} {front back : List String}
    (split : t.names = front ++ name :: back) (distinct : t.names.Nodup) :
    (t.erase name).names = front ++ back := by
  obtain ⟨before, behind⟩ := not_mem_of_split split distinct
  rw [names_erase, split, List.filter_append, List.filter_bne_eq_self_of_not_mem before,
    List.filter_cons, bne_self_eq_false, if_neg Bool.false_ne_true,
    List.filter_bne_eq_self_of_not_mem behind]

/-- An entry gets its new name where it stands; one behind it that has the name already is gone. -/
theorem names_rename {source target : String} {front back : List String}
    (split : t.names = front ++ source :: back) (distinct : t.names.Nodup)
    (apart : target ∉ front) :
    (t.rename source target).names = front ++ target :: back.filter (· != target) := by
  have before := (not_mem_of_split split distinct).1
  have there : source ∈ t.names := by simp [split]
  obtain ⟨text, found⟩ := Option.ne_none_iff_exists'.mp
    fun absent => (t.get?_eq_none_iff source).mp absent there
  have erased : ((t.erase source).erase target).names = front ++ back.filter (· != target) := by
    rw [names_erase, names_erase_of_split split distinct, List.filter_append,
      List.filter_bne_eq_self_of_not_mem apart]
  rw [rename, indexOf?_of_split split before, found]
  change ((t.erase source).insertAt front.length target text).names = _
  rw [names_insertAt, erased, List.take_left, List.drop_left]

/-- A rename is out of range exactly where it meets the last entry and the new name stands in front
of it. -/
theorem renameFits_iff_of_split {source target : String} {front back : List String}
    (split : t.names = front ++ source :: back) (distinct : t.names.Nodup) :
    t.RenameFits source target ↔ (target ∈ front → back ≠ []) := by
  have before := (not_mem_of_split split distinct).1
  have rest := names_erase_of_split split distinct
  have size : (t.erase source).size = front.length + back.length := by
    rw [← List.length_append, ← rest, size, names, List.length_map]
  rw [RenameFits, indexOf?_of_split split before]
  simp only [Option.some.injEq, forall_eq', contains_iff, rest, size, List.mem_append]
  rw [← List.length_pos_iff]
  constructor
  · intro fits inFront
    have room := fits.2 (Or.inl inFront)
    omega
  · intro room
    refine ⟨Nat.le_add_right _ _, ?_⟩
    rintro (inFront | behind)
    · have some := room inFront
      omega
    · have some := List.length_pos_of_mem behind
      omega

/-- Among distinct names, every entry is found under its name. -/
theorem get?_of_mem (distinct : t.names.Nodup) {entry : String × ValueText}
    (mem : entry ∈ t.entries) : t.get? entry.1 = some entry.2 := by
  have stored := filter_entries distinct entry.1
  have here : entry ∈ t.entries.filter (·.1 == entry.1) :=
    List.mem_filter.mpr ⟨mem, by simp⟩
  rw [stored, Option.mem_toList, Option.map_eq_some_iff] at here
  obtain ⟨text, found, same⟩ := here
  rw [found, ← same]

/-- Names that stand together stand there with the texts that are found under them. -/
theorem entries_of_split {front names back : List String} {texts : List ValueText}
    (distinct : t.names.Nodup) (split : t.names = front ++ names ++ back)
    (found : names.map t.get? = texts.map some) :
    ∃ before behind, t.entries = before ++ names.zip texts ++ behind ∧
      before.map (·.1) = front ∧ behind.map (·.1) = back := by
  obtain ⟨first, behind, all, first_names, behind_names⟩ := List.map_eq_append_iff.mp split
  obtain ⟨before, middle, rfl, before_names, middle_names⟩ := List.map_eq_append_iff.mp first_names
  have texts_eq : middle.map (·.2) = texts := by
    apply List.map_injective_iff.mpr fun _ _ => Option.some.inj
    rw [← found, ← middle_names, List.map_map, List.map_map]
    apply List.map_congr_left
    intro entry mem
    have there : entry ∈ t.entries := by
      rw [all]
      exact List.mem_append_left _ (List.mem_append_right _ mem)
    exact (get?_of_mem distinct there).symm
  refine ⟨before, behind, ?_, before_names, behind_names⟩
  rw [all, List.zip_of_prod middle_names texts_eq]

end ParamTable

/-! ### Stored one after the other -/

/-- One more name behind those of the table. -/
theorem ParamTable.eraseDups_names_set {t : ParamTable} (name : String)
    (text : ValueText) (more : List String) :
    ((t.set name text).names ++ more).eraseDups = (t.names ++ name :: more).eraseDups := by
  rw [names_set]
  by_cases known : name ∈ t.names
  · rw [if_pos known, eraseDups_append_cons_of_mem known]
  · rw [if_neg known, List.append_assoc, List.singleton_append]

theorem names_foldl_set {entries : List (String × ValueText)} {table : ParamTable}
    (distinct : table.names.Nodup) :
    (entries.foldl (fun table entry => table.set entry.1 entry.2) table).names
      = (table.names ++ entries.map (·.1)).eraseDups := by
  induction entries generalizing table with
  | nil => rw [List.map_nil, List.append_nil, eraseDups_of_nodup distinct]; rfl
  | cons entry entries ih =>
      rw [List.foldl_cons, ih (ParamTable.nodup_set distinct entry.1 entry.2), List.map_cons,
        ParamTable.eraseDups_names_set]

/-- A run whose every step stores its parameter's name holds the names at their first
occurrences. -/
theorem names_of_stored {σ : Type} {step : σ → Param → Except Cause σ} (table : σ → ParamTable)
    (stores : ∀ {s p s'}, step s p = .ok s' → ∃ text, table s' = (table s).set p.name text)
    {params : List Param} {s after : σ} (distinct : (table s).names.Nodup)
    (run : params.foldlM step s = .ok after) :
    (table after).names = ((table s).names ++ params.map (·.name)).eraseDups := by
  induction params generalizing s with
  | nil =>
      rw [List.foldlM_nil, pure_eq_ok] at run
      rw [← run, List.map_nil, List.append_nil, eraseDups_of_nodup distinct]
  | cons p params ih =>
      rw [List.foldlM_cons, bind_eq_ok] at run
      obtain ⟨between, first, others⟩ := run
      obtain ⟨text, stored⟩ := stores first
      have distinct' : (table between).names.Nodup :=
        stored ▸ ParamTable.nodup_set distinct p.name text
      rw [ih distinct' others, stored, List.map_cons, ParamTable.eraseDups_names_set]

theorem names_of_overrides {d : Dialect} {overrides : List Param} {given : ParamTable}
    (run : overrideTable d overrides = .ok given) :
    given.names = (overrides.map (·.name)).eraseDups := by
  have none : ParamTable.empty.names.Nodup := List.nodup_nil
  refine names_of_stored (fun table => table) ?_ none run
  intro table p after stored
  obtain ⟨text, -, same⟩ := overrideStep_eq_ok.mp stored
  exact ⟨text, same⟩

theorem names_of_declared {d : Dialect} {declared : List Param}
    {given resolved rest after : ParamTable} (distinct : resolved.names.Nodup)
    (run : declared.foldlM (declaredStep d) (resolved, given) = .ok (after, rest)) :
    after.names = (resolved.names ++ declared.map (·.name)).eraseDups := by
  refine names_of_stored Prod.fst ?_ distinct run
  intro state p next stored
  obtain ⟨text, between, -, rfl⟩ := declaredStep_eq_ok.mp stored
  exact ⟨text, rfl⟩

/-- Of the overrides those are left that are not declared, in their own order. -/
theorem names_left_of_declared {d : Dialect} {declared : List Param}
    {given resolved rest after : ParamTable}
    (run : declared.foldlM (declaredStep d) (resolved, given) = .ok (after, rest)) :
    rest.names = given.names.filter (· ∉ declared.map (·.name)) := by
  induction declared generalizing given resolved with
  | nil =>
      rw [List.foldlM_nil, pure_eq_ok, Prod.mk.injEq] at run
      rw [run.2]
      simp
  | cons p declared ih =>
      rw [List.foldlM_cons, bind_eq_ok] at run
      obtain ⟨state, first, others⟩ := run
      obtain ⟨text, between, one, rfl⟩ := declaredStep_eq_ok.mp first
      obtain ⟨-, rfl⟩ := resolveDeclared_eq_ok.mp one
      rw [ih others]
      by_cases absent : given.get? p.name = none
      · rw [if_pos absent]
        apply List.filter_congr
        intro name mem
        have other : name ≠ p.name := by
          rintro rfl
          exact (given.get?_eq_none_iff p.name).mp absent mem
        simp [other]
      · rw [if_neg absent, ParamTable.names_erase, List.filter_filter]
        apply List.filter_congr
        intro name _
        by_cases same : name = p.name
        · simp [same]
        · simp [same]

/-- Declared parameters stand first, behind them the overrides that are passed on. -/
theorem names_of_resolveParams {d : Dialect} {overrides declared : List Param}
    {merged : ResolvedParams} (h : resolveParams d overrides declared = .ok merged) :
    merged.table.names = (declared.map (·.name)).eraseDups ++ merged.undeclared ∧
      merged.undeclared
        = (overrides.map (·.name)).eraseDups.filter (· ∉ declared.map (·.name)) := by
  simp only [resolveParams, bind_eq_ok, pure_eq_ok] at h
  obtain ⟨given, overridden, ⟨after, rest⟩, resolved, rfl⟩ := h
  have none : ParamTable.empty.names.Nodup := List.nodup_nil
  have first : after.names = (declared.map (·.name)).eraseDups := names_of_declared none resolved
  have left := names_left_of_declared resolved
  rw [names_of_overrides overridden] at left
  have run := resolves_of_fold resolved
  have distinct : after.names.Nodup := run.distinct none
  have distinct' : rest.names.Nodup :=
    run.remain ((overridden_of_fold overridden).distinct none)
  have apart : after.names.Disjoint rest.names := by
    intro name declared' passed
    rw [first, List.mem_eraseDups] at declared'
    rw [left, List.mem_filter, decide_eq_true_iff] at passed
    exact passed.2 declared'
  refine ⟨?_, left⟩
  rw [names_foldl_set distinct, ← first]
  exact eraseDups_of_nodup (distinct.append distinct' apart)

/-- Where no name is declared twice, the declared names stand first as they are. -/
theorem names_split_of_resolveParams {d : Dialect} {overrides declared : List Param}
    {merged : ResolvedParams} (h : resolveParams d overrides declared = .ok merged)
    (distinct : (declared.map (·.name)).Nodup) :
    ∃ passed, merged.table.names = declared.map (·.name) ++ passed := by
  have names := (names_of_resolveParams h).1
  rw [eraseDups_of_nodup distinct] at names
  exact ⟨_, names⟩

/-- The names of resolved parameters are the declared ones at their first occurrences, then those of
the overrides that are not declared at theirs. So every name that is declared or overridden stands
there once, and no other one does, whatever is declared or overridden a second time. -/
theorem resolved_names_in_order {d : Dialect} {overrides declared : List Param}
    {merged : ResolvedParams} (h : resolveParams d overrides declared = .ok merged) :
    let known := declared.map (·.name)
    let given := overrides.map (·.name)
    merged.table.names = known.eraseDups ++ given.eraseDups.filter (· ∉ known) ∧
      merged.undeclared = given.eraseDups.filter (· ∉ known) ∧
      merged.table.names.Nodup ∧
      ∀ name, name ∈ merged.table.names ↔ name ∈ known ∨ name ∈ given := by
  obtain ⟨names, undeclared⟩ := names_of_resolveParams h
  rw [undeclared] at names
  refine ⟨names, undeclared, (merged_of_resolveParams h).distinct, ?_⟩
  intro name
  rw [names, List.mem_append, List.mem_eraseDups, List.mem_filter, List.mem_eraseDups,
    decide_eq_true_iff]
  by_cases declared' : name ∈ declared.map (·.name)
  · simp only [declared', true_or]
  · simp only [declared', not_false_eq_true, and_true]

/-- Overrides and declarations that both repeat names, some of them common to both. -/
def repeatedOverrides : List Param :=
  [.withValue "x" (.int 1), .withValue "r" (.int 2), .withValue "y" (.int 3),
    .withValue "x" (.int 4), .withValue "r" (.int 5)]

def repeatedDeclared : List Param :=
  [.withValue "l" (.int 6), .withValue "r" (.int 7), .withValue "l" (.int 8)]

/-- Five overrides and three declarations have four names. -/
theorem resolved_names_in_order_repeated :
    ∃ merged, resolveParams .xyce repeatedOverrides repeatedDeclared = .ok merged ∧
      merged.table.names = ["l", "r", "x", "y"] ∧ merged.undeclared = ["x", "y"] := by
  have resolved : resolveParams .xyce repeatedOverrides repeatedDeclared = .ok _ := rfl
  obtain ⟨names, undeclared, -, -⟩ := resolved_names_in_order resolved
  exact ⟨_, resolved, names, undeclared⟩

end CircuitNetlist
