import CircuitNetlist.Netlist.Instance
import CircuitNetlist.Proofs.ParameterMerge

/-!
# Fields of ideal elements in Spectre

A voltage source is written with names of its own for its fields and with a type in front. Both
take their names from whatever stands under them: a parameter that is passed on under such a
name gives way to the element's own, and all other parameters are written as they were given.
-/
namespace CircuitNetlist.Spectre

/-! ### Renaming -/

theorem nodup_renameAll {renames : List (String × String)} {t : ParamTable}
    (distinct : t.names.Nodup) : (renameAll t renames).names.Nodup := by
  induction renames generalizing t with
  | nil => exact distinct
  | cons r renames ih => exact ih (ParamTable.nodup_rename distinct r.1 r.2)

/-- One after the other, renames with names apart do what they would do at once. -/
theorem get?_renameAll {renames : List (String × String)} {t : ParamTable}
    (sources : (renames.map (·.1)).Nodup) (targets : (renames.map (·.2)).Nodup)
    (apart : ∀ r ∈ renames, r.2 ∉ renames.map (·.1))
    (present : ∀ r ∈ renames, (t.get? r.1).isSome) (name : String) :
    (renameAll t renames).get? name
      = ((renames.find? (·.2 == name)).bind fun r => t.get? r.1).or
          (if name ∈ renames.map (·.1) then none else t.get? name) := by
  induction renames generalizing t with
  | nil => simp [renameAll]
  | cons r renames ih =>
      rw [List.map_cons, List.nodup_cons] at sources targets
      obtain ⟨text, found⟩ := Option.isSome_iff_exists.mp (present r List.mem_cons_self)
      have moved := ParamTable.get?_rename found r.2
      have own : r.2 ∉ (r :: renames).map (·.1) := apart r List.mem_cons_self
      rw [List.map_cons, List.mem_cons, not_or] at own
      have untouched : ∀ q ∈ renames, (t.rename r.1 r.2).get? q.1 = t.get? q.1 := by
        intro q mem
        have source : q.1 ≠ r.1 := by
          intro same
          exact sources.1 (same ▸ List.mem_map_of_mem mem)
        have target : q.1 ≠ r.2 := by
          intro same
          exact own.2 (same ▸ List.mem_map_of_mem mem)
        rw [moved, if_neg target, if_neg source]
      have apart' : ∀ q ∈ renames, q.2 ∉ renames.map (·.1) := by
        intro q mem there
        exact apart q (List.mem_cons_of_mem r mem) (List.mem_cons_of_mem r.1 there)
      have present' : ∀ q ∈ renames, ((t.rename r.1 r.2).get? q.1).isSome := by
        intro q mem
        rw [untouched q mem]
        exact present q (List.mem_cons_of_mem r mem)
      have rest := ih sources.2 targets.2 apart' present'
      change (renameAll (t.rename r.1 r.2) renames).get? name = _
      rw [rest, List.find?_cons]
      by_cases same : r.2 = name
      · subst same
        -- the moved text stays: no later rename has this name on either side
        have none : renames.find? (·.2 == r.2) = none := by
          rw [List.find?_eq_none]
          intro q mem same
          exact targets.1 (eq_of_beq same ▸ List.mem_map_of_mem mem)
        simp [none, own.1, own.2, moved, found]
      · have skip : (r.2 == name) = false := beq_false_of_ne same
        simp only [skip]
        cases later : renames.find? (·.2 == name) with
        | some q =>
            have mem := List.mem_of_find?_eq_some later
            obtain ⟨text', found'⟩ := Option.isSome_iff_exists.mp
              (present q (List.mem_cons_of_mem r mem))
            simp [untouched q mem, found']
        | none =>
            rw [moved, if_neg (Ne.symm same)]
            by_cases source : name = r.1
            · simp [source]
            · have shorter : name ∈ (r :: renames).map (·.1) ↔ name ∈ renames.map (·.1) := by
                rw [List.map_cons, List.mem_cons, or_iff_right source]
              rw [if_neg source]
              by_cases there : name ∈ renames.map (·.1)
              · rw [if_pos there, if_pos (shorter.mpr there)]
                rfl
              · rw [if_neg there, if_neg (mt shorter.mp there)]
                rfl

/-! ### The element's own names -/

/-- The type that stands in front of a voltage source. -/
def typeOf (m : ExternalModule) : Option String :=
  if m.kind = .voltageSource then (sourceType m.name.name).map (·.1) else none

/-- The name changes of a voltage source. -/
def renamesOf (m : ExternalModule) : List (String × String) :=
  if m.kind = .voltageSource then ((sourceType m.name.name).map (·.2)).getD [] else []

/-- The name under which a declared parameter is written. -/
def fieldName (m : ExternalModule) (name : String) : String :=
  ((renamesOf m).find? (·.1 == name)).elim name (·.2)

/-- What the element itself writes under a name that no parameter of it has. -/
def imposed (m : ExternalModule) (params : ParamTable) (name : String) : Option ValueText :=
  if name = "type" then (typeOf m).map fun type => { text := type }
  else ((renamesOf m).find? (·.2 == name)).bind fun r => params.get? r.1

/-- The parameters as they are written. -/
def written (m : ExternalModule) (params : ParamTable) : ParamTable :=
  match typeOf m with
  | some type => (renameAll params (renamesOf m)).setFirst "type" { text := type }
  | none => params

/-- What holds of every ideal element: its parameters have distinct names, and its own names are
apart from them. -/
structure Mapped (m : ExternalModule) : Prop where
  names : (m.parameters.map (·.name)).Nodup
  sources : ((renamesOf m).map (·.1)).Nodup
  targets : ((renamesOf m).map (·.2)).Nodup
  declared : ∀ r ∈ renamesOf m, r.1 ∈ m.parameters.map (·.name)
  fresh : ∀ r ∈ renamesOf m, r.2 ∉ "type" :: m.parameters.map (·.name)
  untyped : "type" ∉ m.parameters.map (·.name)
  unnamed : typeOf m = none → renamesOf m = []

theorem mapped_of_table {m : ExternalModule} (builtin : m ∈ Primitive.table) : Mapped m := by
  have all : ∀ m ∈ Primitive.table, (m.parameters.map (·.name)).Nodup ∧
      ((renamesOf m).map (·.1)).Nodup ∧ ((renamesOf m).map (·.2)).Nodup ∧
      (∀ r ∈ renamesOf m, r.1 ∈ m.parameters.map (·.name)) ∧
      (∀ r ∈ renamesOf m, r.2 ∉ "type" :: m.parameters.map (·.name)) ∧
      "type" ∉ m.parameters.map (·.name) ∧ (typeOf m = none → renamesOf m = []) := by
    decide
  obtain ⟨names, sources, targets, declared, fresh, untyped, unnamed⟩ := all m builtin
  exact ⟨names, sources, targets, declared, fresh, untyped, unnamed⟩

/-- Every ideal element is written, with its own names. -/
theorem element_of_table {m : ExternalModule} (builtin : m ∈ Primitive.table)
    (params : ParamTable) : ∃ name, element m params = .ok (name, written m params) := by
  have all : ∀ m ∈ Primitive.table, (element m params).map (·.2) = .ok (written m params) := by
    simp only [Primitive.table, List.forall_mem_cons]
    refine ⟨rfl, rfl, rfl, rfl, rfl, rfl, rfl, rfl, rfl, rfl, rfl, ?_⟩
    simp
  have here := all m builtin
  cases h : element m params with
  | error cause =>
      rw [h] at here
      cases here
  | ok named =>
      rw [h] at here
      exact ⟨named.1, congrArg Except.ok (Prod.ext rfl (Except.ok.inj here))⟩

namespace Mapped
variable {m : ExternalModule} {params : ParamTable}

theorem apart (h : Mapped m) : ∀ r ∈ renamesOf m, r.2 ∉ (renamesOf m).map (·.1) := by
  intro r mem there
  obtain ⟨q, mem', same⟩ := List.mem_map.mp there
  exact h.fresh r mem (List.mem_cons_of_mem _ (same ▸ h.declared q mem'))

/-- The element's own names come first; a field that has a new name is gone from its old one. -/
theorem get?_written (h : Mapped m)
    (present : ∀ name ∈ m.parameters.map (·.name), (params.get? name).isSome) (name : String) :
    (written m params).get? name = (imposed m params name).or
      (if name ∈ (renamesOf m).map (·.1) then none else params.get? name) := by
  unfold written imposed
  cases type : typeOf m with
  | none =>
      rw [h.unnamed type]
      simp
  | some text =>
      change ((renameAll params (renamesOf m)).insertAt 0 "type" _).get? name = _
      rw [ParamTable.get?_insertAt]
      by_cases same : name = "type"
      · rw [if_pos same, if_pos same]
        rfl
      · rw [if_neg same, if_neg same]
        refine get?_renameAll h.sources h.targets h.apart ?_ name
        intro r mem
        exact present r.1 (h.declared r mem)

theorem nodup_written (distinct : params.names.Nodup) : (written m params).names.Nodup := by
  unfold written
  cases typeOf m with
  | none => exact distinct
  | some type => exact ParamTable.nodup_insertAt (nodup_renameAll distinct) 0 "type" _

/-- A declared parameter is found under its field name. -/
theorem get?_fieldName (h : Mapped m)
    (present : ∀ name ∈ m.parameters.map (·.name), (params.get? name).isSome) {name : String}
    (declared : name ∈ m.parameters.map (·.name)) :
    (written m params).get? (fieldName m name) = params.get? name := by
  rw [h.get?_written present]
  unfold fieldName imposed
  cases source : (renamesOf m).find? (·.1 == name) with
  | some r =>
      have mem := List.mem_of_find?_eq_some source
      have named : r.1 = name := by simpa using List.find?_some source
      have fresh := h.fresh r mem
      rw [List.mem_cons, not_or] at fresh
      have own : (renamesOf m).find? (·.2 == r.2) = some r := find?_of_nodup h.targets mem
      obtain ⟨text, found⟩ := Option.isSome_iff_exists.mp (present name declared)
      simp [own, fresh.1, named, found]
  | none =>
      have typed : name ≠ "type" := by
        intro same
        exact h.untyped (same ▸ declared)
      have own : (renamesOf m).find? (·.2 == name) = none := by
        rw [List.find?_eq_none]
        intro r mem same
        exact h.fresh r mem (List.mem_cons_of_mem _ (eq_of_beq same ▸ declared))
      have unrenamed : name ∉ (renamesOf m).map (·.1) := by
        intro mem
        obtain ⟨r, mem, same⟩ := List.mem_map.mp mem
        exact List.find?_eq_none.mp source r mem (by simp [same])
      simp only [Option.elim_none, typed, ↓reduceIte, own, unrenamed]
      rfl

end Mapped

/-! ### What is written -/

/-- The assignments of a line of parameters, as names and texts. -/
def assigned (t : ParamTable) : List (String × String) :=
  t.entries.map fun entry => (entry.1, entry.2.render .spectre)

theorem filter_assigned {t : ParamTable} (distinct : t.names.Nodup) (name : String) :
    (assigned t).filter (·.1 == name)
      = ((t.get? name).map fun text => (name, text.render .spectre)).toList := by
  have stored := ParamTable.filter_entries distinct name
  have same : (fun entry : String × String => entry.1 == name)
      ∘ (fun entry : String × ValueText => (entry.1, entry.2.render .spectre))
        = fun entry => entry.1 == name := rfl
  rw [assigned, List.filter_map, same, stored]
  cases t.get? name <;> rfl

/-- An instance of an ideal element is written for all overrides that resolve. Its type comes
first, every declared parameter stands once under its field name, and an override that is not
declared stands once under its own name with its last text, except where the element itself
writes another text under that name. -/
theorem passed_override_written_iff {m : ExternalModule} (builtin : m ∈ Primitive.table)
    {overrides : List Param} {merged : ResolvedParams}
    (resolves : resolveParams .spectre overrides m.parameters = .ok merged) (i : Instance)
    (bindings : List PortBinding) :
    ∃ name out, instanceLines .spectre i (.primitive m) merged.table bindings
        = .ok [.text 1 i.name, nodesLine bindings, .continuation 1 name,
            paramsLine .spectre 1 none out, .blank 1] ∧
      out.names.Nodup ∧
      (∀ type, typeOf m = some type → (assigned out).head? = some ("type", type)) ∧
      (∀ p ∈ m.parameters, ∃ text,
        (givenText .spectre overrides p.name).or (p.text? .spectre) = some text ∧
        (assigned out).filter (·.1 == fieldName m p.name)
          = [(fieldName m p.name, text.render .spectre)]) ∧
      ∀ p ∈ overrides, p.name ∉ m.parameters.map (·.name) → ∃ text,
        givenText .spectre overrides p.name = some text ∧
        ((assigned out).filter (·.1 == p.name) = [(p.name, text.render .spectre)] ↔
          ∀ own, imposed m merged.table p.name = some own →
            own.render .spectre = text.render .spectre) := by
  have mapped := mapped_of_table builtin
  have merges := merged_of_resolveParams resolves
  have present : ∀ name ∈ m.parameters.map (·.name), (merged.table.get? name).isSome := by
    intro name mem
    obtain ⟨p, declared, rfl⟩ := List.mem_map.mp mem
    exact (merges.resolved mapped.names p declared).2
  have distinct : (written m merged.table).names.Nodup := Mapped.nodup_written merges.distinct
  obtain ⟨name, element⟩ := element_of_table builtin merged.table
  refine ⟨name, written m merged.table, ?_, distinct, ?_, ?_, ?_⟩
  · simp only [instanceLines, element]
    rfl
  · intro type typed
    simp [written, typed, assigned, ParamTable.setFirst, ParamTable.insertAt, ValueText.render]
  · intro p declared
    obtain ⟨same, found⟩ := merges.resolved mapped.names p declared
    obtain ⟨text, found⟩ := Option.isSome_iff_exists.mp found
    refine ⟨text, same.symm.trans found, ?_⟩
    have field := mapped.get?_fieldName present (List.mem_map_of_mem declared)
    rw [filter_assigned distinct, field, found]
    rfl
  · intro p mem undeclared
    have passed := merges.passed p.name undeclared
    have given := givenText_isSome merges.valued (List.mem_map_of_mem (f := (·.name)) mem)
    obtain ⟨text, given⟩ := Option.isSome_iff_exists.mp given
    refine ⟨text, given, ?_⟩
    have stays : p.name ∉ (renamesOf m).map (·.1) := by
      intro source
      obtain ⟨r, mem, same⟩ := List.mem_map.mp source
      exact undeclared (same ▸ mapped.declared r mem)
    rw [filter_assigned distinct, mapped.get?_written present, if_neg stays, passed, given]
    cases own : imposed m merged.table p.name with
    | none => simp
    | some text' => simp

/-- The constant source of the table. -/
def constantSource : ExternalModule :=
  (Primitive.twoTerminal "vdc" .voltageSource ["dc"]).withParameter (.withValue "ac" (.int 0))

/-- An instance of the constant source with one override more than it needs. -/
def biased (name : String) : Instance :=
  { name := "v", reference := .external constantSource.name,
    parameters := [.withValue "dc" (.int 1), .withValue name (.int 5)] }

/-- A multiplier is no name of the source, so it is written. -/
theorem passed_override_written_iff_multiplier :
    ∃ merged,
      resolveParams .spectre (biased "m").parameters constantSource.parameters = .ok merged ∧
      ∃ name out, instanceLines .spectre (biased "m") (.primitive constantSource) merged.table []
          = .ok [.text 1 "v", nodesLine [], .continuation 1 name, paramsLine .spectre 1 none out,
            .blank 1] ∧
        (assigned out).filter (·.1 == "m") = [("m", "5")] := by
  have builtin : constantSource ∈ Primitive.table := by decide
  have resolves : resolveParams .spectre (biased "m").parameters constantSource.parameters
      = .ok _ := rfl
  obtain ⟨name, out, lines, -, -, -, passed⟩ :=
    passed_override_written_iff builtin resolves (biased "m") []
  refine ⟨_, resolves, name, out, lines, ?_⟩
  obtain ⟨text, given, conserved⟩ :=
    passed (.withValue "m" (.int 5)) (by simp [biased]) (by decide)
  have said : givenText .spectre (biased "m").parameters "m" = some { text := "5" } := rfl
  obtain rfl : text = { text := "5" } := Option.some.inj (given.symm.trans said)
  refine conserved.mpr ?_
  intro own imposes
  cases imposes

/-- A magnitude given by the caller gives way to the source's own, and is written nowhere. -/
theorem passed_override_written_iff_magnitude :
    ∃ merged, resolveParams .spectre (biased "mag").parameters constantSource.parameters
        = .ok merged ∧
      givenText .spectre (biased "mag").parameters "mag" = some { text := "5" } ∧
      instanceLines .spectre (biased "mag") (.primitive constantSource) merged.table []
        = .ok [.text 1 "v", nodesLine [], .continuation 1 "vsource",
          .continuation 1 "type=dc dc=1 mag=0", .blank 1] := by
  exact ⟨_, rfl, rfl, rfl⟩

end CircuitNetlist.Spectre
