import CircuitNetlist.Proofs.PositionalValues

/-!
# Renames that find their place

A rename takes an entry out and puts it back at its place under another name. An ordered map gives
the place behind its last entry to a new name only, so a rename can be refused; whether it is
depends on the order of the names. The fields of a voltage source stand in front of everything that
is passed on, and none of them has a name that another one gets. So a name that a rename meets
stands behind the field, and no rename is refused.
-/
namespace CircuitNetlist

/-! ### Renames that may be refused -/

namespace ParamTable
variable {t : ParamTable}

/-- Storing at a place as an ordered map does it: a name that is there can only be moved to the
place of an entry, a new one also behind the last entry. -/
def insertAt? (t : ParamTable) (index : Nat) (name : String) (text : ValueText) :
    Option ParamTable :=
  if index < (if t.contains name then t.size else t.size + 1) then some (t.insertAt index name text)
  else none

/-- A rename that is refused where its place is out of range. -/
def rename? (t : ParamTable) (source target : String) : Option ParamTable :=
  match t.indexOf? source, t.get? source with
  | some index, some text => (t.erase source).insertAt? index target text
  | _, _ => some t

theorem insertAt?_eq_some_iff {index : Nat} {name : String} {text : ValueText}
    {after : ParamTable} :
    t.insertAt? index name text = some after ↔
      (index ≤ t.size ∧ (t.contains name → index < t.size)) ∧
        t.insertAt index name text = after := by
  have range : index < (if t.contains name then t.size else t.size + 1) ↔
      index ≤ t.size ∧ (t.contains name → index < t.size) := by
    by_cases known : t.contains name
    · rw [if_pos known]
      exact ⟨fun inside => ⟨Nat.le_of_lt inside, fun _ => inside⟩, fun fits => fits.2 known⟩
    · rw [if_neg known, Nat.lt_succ_iff]
      exact ⟨fun inside => ⟨inside, fun there => absurd there known⟩, fun fits => fits.1⟩
  rw [insertAt?, Option.ite_none_right_eq_some, Option.some.injEq, range]

/-- A rename is carried out exactly if its place is in range. -/
theorem rename?_eq_some_iff {source target : String} {after : ParamTable} :
    t.rename? source target = some after ↔
      t.RenameFits source target ∧ t.rename source target = after := by
  unfold rename? rename RenameFits
  cases place : t.indexOf? source with
  | none => simp
  | some index =>
      have there : source ∈ t.names := by
        rw [← List.isSome_idxOf?]
        exact Option.isSome_of_eq_some place
      cases found : t.get? source with
      | none => exact absurd there ((t.get?_eq_none_iff source).mp found)
      | some text => simp [insertAt?_eq_some_iff]

/-- The last entry cannot take the name of one in front of it. -/
example : (mk [("a", { text := "1" }), ("b", { text := "2" })]).rename? "b" "a" = none := by decide

end ParamTable

/-! ### One rename after the other -/

namespace Spectre

/-- Renames one after the other, none of which may be refused. -/
def renameAll? (params : ParamTable) (renames : List (String × String)) : Option ParamTable :=
  renames.foldlM (fun params names => params.rename? names.1 names.2) params

theorem renameAll?_eq_some {renames : List (String × String)} {t : ParamTable}
    (fit : ∀ before r after, renames = before ++ r :: after →
      (renameAll t before).RenameFits r.1 r.2) :
    renameAll? t renames = some (renameAll t renames) := by
  induction renames generalizing t with
  | nil => rfl
  | cons r renames ih =>
      have first : t.rename? r.1 r.2 = some (t.rename r.1 r.2) :=
        ParamTable.rename?_eq_some_iff.mpr ⟨fit [] r renames rfl, rfl⟩
      have others : renameAll? (t.rename r.1 r.2) renames
          = some (renameAll (t.rename r.1 r.2) renames) := by
        apply ih
        intro before q after split
        exact fit (r :: before) q after (split ▸ rfl)
      rw [renameAll?, List.foldlM_cons, first]
      exact others

/-- Among the renames, each meets its field in front of what is passed on, under its own name still,
and finds a place for it. -/
theorem renameFits_of_fields {renames before after : List (String × String)} {r : String × String}
    {t : ParamTable} {fields passed : List String} (split : t.names = fields ++ passed)
    (distinct : t.names.Nodup) (known : ∀ q ∈ renames, q.1 ∈ fields)
    (fresh : ∀ q ∈ renames, q.2 ∉ fields) (sources : (renames.map (·.1)).Nodup)
    (targets : (renames.map (·.2)).Nodup) (all : renames = before ++ r :: after) :
    r.1 ∈ (renameAll t before).names ∧ (renameAll t before).RenameFits r.1 r.2 := by
  subst all
  rw [List.map_append, List.map_cons, List.nodup_middle, List.nodup_cons, List.mem_append,
    not_or] at sources targets
  rw [List.nodup_append] at sources targets
  rw [List.forall_mem_append, List.forall_mem_cons] at known fresh
  have names := names_renameAll split distinct known.1 fresh.1 sources.2.1 targets.2.1
  have here : r.1 ∈ fields.map (renamed before) := mem_map_renamed known.2.1 sources.1.1
  have unused : r.2 ∉ fields.map (renamed before) := not_mem_map_renamed fresh.2.1 targets.1.1
  obtain ⟨front, back, changed⟩ := List.append_of_mem here
  rw [changed, List.append_assoc, List.cons_append] at names
  have there : r.1 ∈ (renameAll t before).names := by
    rw [names]
    exact List.mem_append_right front List.mem_cons_self
  refine ⟨there, (ParamTable.renameFits_iff_of_split names (nodup_renameAll distinct)).mpr ?_⟩
  intro inFront
  rw [changed] at unused
  exact absurd (List.mem_append_left _ inFront) unused

/-- No rename of a voltage source is refused, for all overrides that resolve. Each meets its entry,
at a place that is one of the table without the entry: not behind the last entry, if the new name is
there already. So the renames come to the parameters that are written. -/
theorem source_renames_in_range {m : ExternalModule} (builtin : m ∈ Primitive.table)
    (source : m.kind = .voltageSource) {d : Dialect} {overrides : List Param}
    {merged : ResolvedParams} (resolves : resolveParams d overrides m.parameters = .ok merged) :
    ∃ type renames out, sourceType m.name.name = some (type, renames) ∧
      renameAll? merged.table renames = some out ∧
      element m merged.table = .ok ("vsource", out.setFirst "type" { text := type }) ∧
      ∀ before r after, renames = before ++ r :: after →
        let t := renameAll merged.table before
        let rest := t.erase r.1
        ∃ index, t.indexOf? r.1 = some index ∧
          index ≤ rest.size ∧ (rest.contains r.2 → index < rest.size) := by
  have mapped := mapped_of_table builtin
  obtain ⟨form, -, -, -, typed, -⟩ := form_of_source builtin source
  rw [typeOf, if_pos source] at typed
  obtain ⟨⟨type, renames⟩, found, -⟩ := Option.map_eq_some_iff.mp typed
  have own : renamesOf m = renames := by
    rw [renamesOf, if_pos source, found]
    rfl
  have distinct := (merged_of_resolveParams resolves).distinct
  obtain ⟨passed, split⟩ := names_split_of_resolveParams resolves mapped.names
  have fresh : ∀ r ∈ renamesOf m, r.2 ∉ m.parameters.map (·.name) := by
    intro r mem there
    exact mapped.fresh r mem (List.mem_cons_of_mem _ there)
  have fit : ∀ before r after, renames = before ++ r :: after →
      r.1 ∈ (renameAll merged.table before).names ∧
        (renameAll merged.table before).RenameFits r.1 r.2 := by
    intro before r after all
    exact renameFits_of_fields split distinct mapped.declared fresh mapped.sources mapped.targets
      (own.trans all)
  refine ⟨type, renames, renameAll merged.table renames, found, ?_, ?_, ?_⟩
  · apply renameAll?_eq_some
    intro before r after all
    exact (fit before r after all).2
  · simp only [element, source, found]
    rfl
  · intro before r after all
    obtain ⟨there, fits⟩ := fit before r after all
    obtain ⟨index, place⟩ := Option.isSome_iff_exists.mp (List.isSome_idxOf?.mpr there)
    exact ⟨index, place, fits index place⟩

/-- An instance of the pulse source that passes on a parameter under every name that a field
gets. -/
def loadedPulse : Instance :=
  { name := "clk", reference := .external pulseSource.name,
    parameters := (pulseRenames.map fun names => .withValue names.2 (.int 0))
      ++ pulseRenames.map fun names => .withValue names.1 (.int 1) }

/-- The last field is met in front of the only parameter that is left behind it, and has its name
already. -/
theorem source_renames_in_range_loaded :
    ∃ merged, resolveParams .spectre loadedPulse.parameters pulseSource.parameters = .ok merged ∧
      (∃ out, renameAll? merged.table pulseRenames = some out) ∧
      let t := renameAll merged.table (pulseRenames.take 6)
      t.names = ["val0", "val1", "delay", "rise", "fall", "width", "tper", "period"] ∧
        ∃ index, t.indexOf? "tper" = some index ∧ index < (t.erase "tper").size := by
  have builtin : pulseSource ∈ Primitive.table := by decide
  have resolves :
      resolveParams .spectre loadedPulse.parameters pulseSource.parameters = .ok _ := rfl
  obtain ⟨type, renames, out, found, ran, -, fits⟩ := source_renames_in_range builtin rfl resolves
  obtain ⟨-, rfl⟩ : "pulse" = type ∧ pulseRenames = renames := by
    have named : sourceType "vpulse" = some ("pulse", pulseRenames) := by decide
    exact Prod.mk.inj (Option.some.inj (named.symm.trans found))
  obtain ⟨index, place, -, inRange⟩ := fits (pulseRenames.take 6) ("tper", "period") [] rfl
  exact ⟨_, resolves, ⟨out, ran⟩, by decide, index, place, inRange (by decide)⟩

end Spectre

end CircuitNetlist
