import CircuitNetlist.Proofs.ParameterOrder
import CircuitNetlist.Proofs.ParameterPrecedence
import CircuitNetlist.Proofs.SpectreFields
import CircuitNetlist.Proofs.StepwiseInstances

/-!
# Two layouts of a voltage source

The Spice family writes the fields of a voltage source by position, in a clause that tells which
source it is; Spectre writes them by name behind a type, each under a name of its own. The fields
stand in the same order in both, and each has the text of the same value: parameters that are passed
on come behind the declared ones, so a rename meets them there and never moves a field.
-/
namespace CircuitNetlist

/-! ### What is taken out by position -/

namespace ParamTable
variable {t : ParamTable}

theorem pop_eq_ok {name : String} {text : ValueText} {rest : ParamTable} :
    t.pop name = .ok (text, rest) ↔ t.get? name = some text ∧ t.erase name = rest := by
  unfold pop
  cases t.get? name <;> simp

/-- What is taken out is what is found under the names. -/
theorem texts_of_popMany {names : List String} {texts : List ValueText} {rest : ParamTable}
    (distinct : names.Nodup) (popped : t.popMany names = (.ok texts, rest)) :
    names.map t.get? = texts.map some := by
  induction names generalizing t texts rest with
  | nil =>
      obtain rfl := Except.ok.inj (Prod.mk.inj popped).1
      rfl
  | cons name names ih =>
      rw [List.nodup_cons] at distinct
      obtain ⟨text, between, others, rfl, first, later⟩ := pop_of_popMany popped
      obtain ⟨found, rfl⟩ := pop_eq_ok.mp first
      have untouched : names.map (t.erase name).get? = names.map t.get? := by
        apply List.map_congr_left
        intro other mem
        have differ : other ≠ name := by
          rintro rfl
          exact distinct.1 mem
        rw [get?_erase, if_neg differ]
      rw [List.map_cons, List.map_cons, found, ← ih distinct.2 later, untouched]

end ParamTable

/-! ### The order of the element's own names -/

namespace Spectre

/-- The name that a field gets. -/
def renamed (renames : List (String × String)) (name : String) : String :=
  (renames.find? (·.1 == name)).elim name (·.2)

theorem renamed_cons_self (r : String × String) (renames : List (String × String)) :
    renamed (r :: renames) r.1 = r.2 := by
  simp [renamed]

theorem renamed_cons_of_ne {r : String × String} {name : String} (other : name ≠ r.1)
    (renames : List (String × String)) : renamed (r :: renames) name = renamed renames name := by
  have skip : (r.1 == name) = false := beq_false_of_ne (Ne.symm other)
  simp [renamed, skip]

theorem renamed_of_not_mem {renames : List (String × String)} {name : String}
    (unknown : name ∉ renames.map (·.1)) : renamed renames name = name := by
  have none : renames.find? (·.1 == name) = none := by
    rw [List.find?_eq_none]
    intro r mem same
    exact unknown (eq_of_beq same ▸ List.mem_map_of_mem mem)
  rw [renamed, none]
  rfl

/-- One rename gives a field its new name, and takes the name from what is passed on. -/
theorem names_rename_field {r : String × String} {t : ParamTable} {fields passed : List String}
    (split : t.names = fields ++ passed) (distinct : t.names.Nodup) (known : r.1 ∈ fields)
    (fresh : r.2 ∉ fields) :
    (t.rename r.1 r.2).names = fields.map (renamed [r]) ++ passed.filter (· != r.2) := by
  obtain ⟨front, back, rfl⟩ := List.append_of_mem known
  have alone : (front ++ r.1 :: back).Nodup := (split ▸ distinct).of_append_left
  rw [List.nodup_middle, List.nodup_cons, List.mem_append, not_or] at alone
  rw [List.mem_append, List.mem_cons, not_or, not_or] at fresh
  have kept : ∀ {names : List String}, r.1 ∉ names → names.map (renamed [r]) = names := by
    intro names absent
    have same : names.map (renamed [r]) = names.map id := by
      apply List.map_congr_left
      intro name mem
      apply renamed_of_not_mem
      rw [List.map_singleton, List.mem_singleton]
      rintro rfl
      exact absent mem
    rw [same, List.map_id]
  rw [List.append_assoc, List.cons_append] at split
  rw [ParamTable.names_rename split distinct fresh.1, List.filter_append,
    List.filter_bne_eq_self_of_not_mem fresh.2.2, List.map_append, List.map_cons, kept alone.1.1,
    kept alone.1.2, renamed_cons_self, List.append_assoc, List.cons_append]

/-- A field whose name is not changed is still among the fields. -/
theorem mem_map_renamed {renames : List (String × String)} {fields : List String} {name : String}
    (field : name ∈ fields) (kept : name ∉ renames.map (·.1)) :
    name ∈ fields.map (renamed renames) :=
  List.mem_map.mpr ⟨name, field, renamed_of_not_mem kept⟩

/-- A field has its own name or a new one, and no other. -/
theorem not_mem_map_renamed {renames : List (String × String)} {fields : List String}
    {name : String} (fresh : name ∉ fields) (unused : name ∉ renames.map (·.2)) :
    name ∉ fields.map (renamed renames) := by
  intro there
  obtain ⟨field, mem, same⟩ := List.mem_map.mp there
  unfold renamed at same
  cases source : renames.find? (·.1 == field) with
  | none =>
      rw [source] at same
      exact fresh (same ▸ mem)
  | some r =>
      rw [source] at same
      exact unused (same ▸ List.mem_map_of_mem (List.mem_of_find?_eq_some source))

/-- One rename and then the others, which leave the new name alone. -/
theorem map_renamed_cons {r : String × String} {renames : List (String × String)}
    (settled : r.2 ∉ renames.map (·.1)) (fields : List String) :
    (fields.map (renamed [r])).map (renamed renames) = fields.map (renamed (r :: renames)) := by
  rw [List.map_map]
  apply List.map_congr_left
  intro name _
  rw [Function.comp_apply]
  by_cases own : name = r.1
  · rw [own, renamed_cons_self, renamed_cons_self, renamed_of_not_mem settled]
  · rw [renamed_cons_of_ne own, renamed_cons_of_ne own]
    rfl

/-- Renaming one after the other keeps the order of the fields, and of what is passed on leaves out
the names that are taken. -/
theorem names_renameAll {renames : List (String × String)} {t : ParamTable}
    {fields passed : List String} (split : t.names = fields ++ passed) (distinct : t.names.Nodup)
    (known : ∀ r ∈ renames, r.1 ∈ fields) (fresh : ∀ r ∈ renames, r.2 ∉ fields)
    (sources : (renames.map (·.1)).Nodup) (targets : (renames.map (·.2)).Nodup) :
    (renameAll t renames).names
      = fields.map (renamed renames) ++ passed.filter (· ∉ renames.map (·.2)) := by
  induction renames generalizing t fields passed with
  | nil =>
      have same : fields.map (renamed []) = fields := List.map_id fields
      simpa [renameAll, same] using split
  | cons r renames ih =>
      rw [List.forall_mem_cons] at known fresh
      rw [List.map_cons, List.nodup_cons] at sources targets
      have one := names_rename_field split distinct known.1 fresh.1
      -- the names that are still to be changed stay, and no new name is among the changed ones
      have known' : ∀ q ∈ renames, q.1 ∈ fields.map (renamed [r]) := by
        intro q mem
        apply mem_map_renamed (known.2 q mem)
        rw [List.map_singleton, List.mem_singleton]
        intro same
        exact sources.1 (same ▸ List.mem_map_of_mem mem)
      have fresh' : ∀ q ∈ renames, q.2 ∉ fields.map (renamed [r]) := by
        intro q mem
        apply not_mem_map_renamed (fresh.2 q mem)
        rw [List.map_singleton, List.mem_singleton]
        intro same
        exact targets.1 (same ▸ List.mem_map_of_mem mem)
      have settled : r.2 ∉ renames.map (·.1) := by
        intro there
        obtain ⟨q, mem, same⟩ := List.mem_map.mp there
        exact fresh.1 (same ▸ known.2 q mem)
      have passed_eq : (passed.filter (· != r.2)).filter (· ∉ renames.map (·.2))
          = passed.filter (· ∉ (r :: renames).map (·.2)) := by
        rw [List.filter_filter]
        apply List.filter_congr
        intro name _
        rw [Bool.eq_iff_iff]
        simp [and_comm]
      change (renameAll (t.rename r.1 r.2) renames).names = _
      rw [ih one (ParamTable.nodup_rename distinct r.1 r.2) known' fresh' sources.2 targets.2,
        map_renamed_cons settled, passed_eq]

/-- A source is written with its type in front and its fields in declared order behind it. -/
theorem Mapped.names_written {m : ExternalModule} (h : Mapped m) {type : String}
    (typed : typeOf m = some type) {params : ParamTable} {passed : List String}
    (split : params.names = m.parameters.map (·.name) ++ passed) (distinct : params.names.Nodup) :
    ∃ others, (written m params).names
      = "type" :: m.parameters.map (fun p => fieldName m p.name) ++ others := by
  have fresh : ∀ r ∈ renamesOf m, r.2 ∉ m.parameters.map (·.name) := by
    intro r mem there
    exact h.fresh r mem (List.mem_cons_of_mem _ there)
  have names := names_renameAll split distinct h.declared fresh h.sources h.targets
  have untyped : "type" ∉ (m.parameters.map (·.name)).map (renamed (renamesOf m)) := by
    apply not_mem_map_renamed h.untyped
    intro target
    obtain ⟨r, mem, same⟩ := List.mem_map.mp target
    exact h.fresh r mem (same ▸ List.mem_cons_self)
  unfold written
  rw [typed]
  change ∃ others, ((renameAll params (renamesOf m)).insertAt 0 "type" _).names = _
  rw [ParamTable.names_insertAt, ParamTable.names_erase, names, List.filter_append,
    List.filter_bne_eq_self_of_not_mem untyped, List.map_map]
  exact ⟨_, rfl⟩

end Spectre

/-! ### The value of a field -/

/-- The value that counts for a declared parameter: that of its last override, or else its
default. -/
def countedValue (overrides : List Param) (p : Param) : Option Value :=
  ((lastOverride overrides p.name).getD p).value

/-- The texts of some parameters that have these values. -/
def fieldTexts (d : Dialect) (params : List Param) (values : List Value) :
    Except Cause (List ValueText) :=
  (params.zip values).mapM fun field => paramText d field.1.name field.2

theorem text_of_countedValue {d : Dialect} {overrides : List Param}
    (valued : ∀ q ∈ overrides, (q.text? d).isSome) (p : Param) :
    (givenText d overrides p.name).or (p.text? d)
      = (countedValue overrides p).bind fun value => (paramText d p.name value).toOption := by
  unfold givenText countedValue
  cases last : lastOverride overrides p.name with
  | none => rfl
  | some q =>
      obtain ⟨named, -⟩ := lastOverride_eq_some_iff.mp last
      obtain ⟨text, given⟩ := Option.isSome_iff_exists.mp (valued q (mem_of_lastOverride last))
      rw [Option.bind_some, given, Option.some_or, Option.getD_some, ← named, ← given]
      rfl

/-- Declared parameters that have been resolved have the texts of the values that count. -/
theorem fieldTexts_of_resolved {d : Dialect} {overrides : List Param} {table : ParamTable}
    {params : List Param} (valued : ∀ q ∈ overrides, (q.text? d).isSome)
    (resolved : ∀ p ∈ params, table.get? p.name = (givenText d overrides p.name).or (p.text? d) ∧
      (table.get? p.name).isSome) :
    ∃ values texts, params.map (countedValue overrides) = values.map some ∧
      fieldTexts d params values = .ok texts ∧
      params.map (fun p => table.get? p.name) = texts.map some := by
  induction params with
  | nil => exact ⟨[], [], rfl, rfl, rfl⟩
  | cons p params ih =>
      rw [List.forall_mem_cons] at resolved
      obtain ⟨⟨same, found⟩, others⟩ := resolved
      obtain ⟨values, texts, counted, converted, stored⟩ := ih others
      obtain ⟨text, found⟩ := Option.isSome_iff_exists.mp found
      rw [text_of_countedValue valued, found] at same
      obtain ⟨value, here, text_eq⟩ := Option.bind_eq_some_iff.mp same.symm
      have converts : paramText d p.name value = .ok text := by
        cases result : paramText d p.name value with
        | error cause =>
            rw [result] at text_eq
            cases text_eq
        | ok other =>
            rw [result] at text_eq
            exact congrArg Except.ok (Option.some.inj text_eq)
      refine ⟨value :: values, text :: texts, ?_, ?_, ?_⟩
      · rw [List.map_cons, List.map_cons, here, counted]
      · simp only [fieldTexts, List.zip_cons_cons, List.mapM_cons, bind_eq_ok, pure_eq_ok]
        exact ⟨text, converts, texts, converted, rfl⟩
      · rw [List.map_cons, List.map_cons, found, stored]

/-! ### One source in both layouts -/

/-- How a voltage source is described: its fields in order, its type and the names of the fields in
Spectre, and its clauses in the Spice family. -/
structure SourceForm where
  source : String
  fields : List String
  type : String
  spectreFields : List String
  clauses : List String → List String

/-- The constant source has a clause for each of its values. -/
def SourceForm.constant : SourceForm where
  source := "vdc"
  fields := ["dc", "ac"]
  type := "dc"
  spectreFields := ["dc", "mag"]
  clauses values := List.zipWith (fun name value => name ++ " " ++ value) ["dc", "ac"] values

def SourceForm.pulse : SourceForm where
  source := "vpulse"
  fields := ["v1", "v2", "td", "tr", "tf", "tpw", "tper"]
  type := "pulse"
  spectreFields := ["val0", "val1", "delay", "rise", "fall", "width", "period"]
  clauses values := ["pulse(" ++ joinWords values ++ ")"]

def SourceForm.sine : SourceForm where
  source := "vsin"
  fields := ["voff", "vamp", "freq", "td", "phase"]
  type := "sine"
  spectreFields := ["sinedc", "ampl", "freq", "delay", "sinephase"]
  clauses values := ["sin(" ++ joinWords values ++ ")"]

/-- The three voltage sources. -/
def sourceForms : List SourceForm :=
  [.constant, .pulse, .sine]

theorem form_of_source {m : ExternalModule} (builtin : m ∈ Primitive.table)
    (source : m.kind = .voltageSource) :
    ∃ form ∈ sourceForms, form.source = m.name.name ∧ m.parameters.map (·.name) = form.fields ∧
      Spectre.typeOf m = some form.type ∧
      m.parameters.map (fun p => Spectre.fieldName m p.name) = form.spectreFields := by
  have all : ∀ m ∈ Primitive.table, m.kind = .voltageSource →
      ∃ form ∈ sourceForms, form.source = m.name.name ∧ m.parameters.map (·.name) = form.fields ∧
        Spectre.typeOf m = some form.type ∧
        m.parameters.map (fun p => Spectre.fieldName m p.name) = form.spectreFields := by
    decide
  exact all m builtin source

namespace Spice

/-- The clause of a list of fields that are all there. -/
theorem popMany_of_fields {fields : List String} {t : ParamTable} {texts : List ValueText}
    (distinct : fields.Nodup) (found : fields.map t.get? = texts.map some) :
    ∃ left, t.popMany fields = (.ok texts, left) := by
  have present : ∀ name ∈ fields, (t.get? name).isSome := by
    intro name mem
    have there : t.get? name ∈ texts.map some := found ▸ List.mem_map_of_mem mem
    obtain ⟨text, -, same⟩ := List.mem_map.mp there
    rw [← same]
    rfl
  obtain ⟨taken, left, popped⟩ := ParamTable.popMany_of_present distinct present
  have same := (ParamTable.texts_of_popMany distinct popped).symm.trans found
  have same : taken = texts := List.map_injective_iff.mpr (fun _ _ => Option.some.inj) same
  exact ⟨left, same ▸ popped⟩

/-- A source is written with the clauses of the values that are taken out. -/
theorem sourceClauses_of_popped {form : SourceForm} (known : form ∈ sourceForms) (d : Dialect)
    {t left : ParamTable} {texts : List ValueText}
    (popped : t.popMany form.fields = (.ok texts, left)) :
    sourceClauses d form.source t
      = .ok ((form.clauses (texts.map (·.render d))).map (.continuation 0), left) := by
  simp only [sourceForms, List.mem_cons, List.not_mem_nil, or_false] at known
  rcases known with rfl | rfl | rfl
  · obtain ⟨dc, between, others, rfl, first, later⟩ := ParamTable.pop_of_popMany popped
    obtain ⟨ac, left, _, rfl, second, last⟩ := ParamTable.pop_of_popMany later
    obtain ⟨same, rfl⟩ := Prod.mk.inj last
    obtain rfl := Except.ok.inj same
    change (t.pop "dc" >>= _) = _
    rw [first]
    change (between.pop "ac" >>= _) = _
    rw [second]
    rfl
  · change ((t.popMany SourceForm.pulse.fields).1 >>= fun fields =>
      pure ([clause d "pulse" fields], (t.popMany SourceForm.pulse.fields).2) : Except Cause _) = _
    rw [popped]
    rfl
  · change ((t.popMany SourceForm.sine.fields).1 >>= fun fields =>
      pure ([clause d "sin" fields], (t.popMany SourceForm.sine.fields).2) : Except Cause _) = _
    rw [popped]
    rfl

/-- A source whose fields are all there is written with its clauses. -/
theorem sourceClauses_of_form {form : SourceForm} (known : form ∈ sourceForms) (d : Dialect)
    {t : ParamTable} {texts : List ValueText} (found : form.fields.map t.get? = texts.map some) :
    ∃ left, sourceClauses d form.source t
      = .ok ((form.clauses (texts.map (·.render d))).map (.continuation 0), left) := by
  have distinct : form.fields.Nodup := by
    have all : ∀ form ∈ sourceForms, form.fields.Nodup := by decide
    exact all form known
  obtain ⟨left, popped⟩ := popMany_of_fields distinct found
  exact ⟨left, sourceClauses_of_popped known d popped⟩

end Spice

namespace Spectre

theorem element_of_source {m : ExternalModule} (source : m.kind = .voltageSource) {type : String}
    (typed : typeOf m = some type) (params : ParamTable) :
    element m params = .ok ("vsource", written m params) := by
  unfold element written
  rw [typed, source]
  unfold typeOf at typed
  rw [if_pos source] at typed
  obtain ⟨⟨type', renames⟩, found, rfl⟩ := Option.map_eq_some_iff.mp typed
  simp only [found, renamesOf, source, ↓reduceIte, Option.map_some, Option.getD_some]
  rfl

/-- The line of parameters starts with the type and the fields, and no name stands there twice. -/
theorem Mapped.assigned_written {m : ExternalModule} (h : Mapped m) {type : String}
    (typed : typeOf m = some type) {params : ParamTable} {passed : List String}
    (split : params.names = m.parameters.map (·.name) ++ passed) (distinct : params.names.Nodup)
    {texts : List ValueText}
    (stored : m.parameters.map (fun p => params.get? p.name) = texts.map some) :
    ∃ others, assigned (written m params) = ("type", type)
      :: (m.parameters.map fun p => fieldName m p.name).zip (texts.map (·.render .spectre))
        ++ others := by
  have present : ∀ name ∈ m.parameters.map (·.name), (params.get? name).isSome := by
    intro name mem
    rw [Option.isSome_iff_ne_none, Ne, ParamTable.get?_eq_none_iff, not_not, split]
    exact List.mem_append_left _ mem
  have first : (written m params).get? "type" = some { text := type } := by
    rw [h.get?_written present, imposed, if_pos rfl, typed]
    rfl
  have fields : (m.parameters.map fun p => fieldName m p.name).map (written m params).get?
      = texts.map some := by
    rw [← stored, List.map_map]
    apply List.map_congr_left
    intro p mem
    exact h.get?_fieldName present (List.mem_map_of_mem mem)
  obtain ⟨others, names⟩ := h.names_written typed split distinct
  have behind_type : (written m params).names
      = [] ++ ("type" :: m.parameters.map fun p => fieldName m p.name) ++ others := names
  have found : ("type" :: m.parameters.map fun p => fieldName m p.name).map (written m params).get?
      = ({ text := type } :: texts).map some := by
    rw [List.map_cons, List.map_cons, first, fields]
  obtain ⟨before, behind, entries, before_names, -⟩ :=
    ParamTable.entries_of_split (nodup_written distinct) behind_type found
  obtain rfl := List.map_eq_nil_iff.mp before_names
  refine ⟨behind.map fun entry => (entry.1, entry.2.render .spectre), ?_⟩
  rw [assigned, entries, List.nil_append, List.map_append, List.zip_cons_cons, List.map_cons,
    List.zip_map_right]
  rfl

theorem paramsLine_of_assigned {t : ParamTable} {entry : String × String}
    {entries : List (String × String)} (assigns : assigned t = entry :: entries) (depth : Nat) :
    paramsLine .spectre depth none t
      = .continuation depth (joinWords ((entry :: entries).map fun e => e.1 ++ "=" ++ e.2)) := by
  have some : t.isEmpty = false := by
    cases none : t.isEmpty with
    | false => rfl
    | true =>
        rw [assigned, List.isEmpty_iff.mp none] at assigns
        cases assigns
  rw [paramsLine, some, ← assigns, assigned, List.map_map]
  rfl

end Spectre

/-- A voltage source has the same values in both layouts, for all overrides that resolve in both. In
a dialect of the Spice family they stand by position in its clauses. In Spectre they stand behind
its type, each under the name of its field, in front of all parameters that are passed on; no name
stands there a second time. -/
theorem source_layouts_agree {m : ExternalModule} (builtin : m ∈ Primitive.table)
    (source : m.kind = .voltageSource) {d : Dialect} (family : d.family = .spice) (i : Instance)
    {positional named : ResolvedParams}
    (resolves : resolveParams d i.parameters m.parameters = .ok positional)
    (resolves' : resolveParams .spectre i.parameters m.parameters = .ok named)
    (bindings bindings' : List PortBinding) :
    ∃ form ∈ sourceForms, form.source = m.name.name ∧ m.parameters.map (·.name) = form.fields ∧
      ∃ values texts texts' left passed,
        m.parameters.map (countedValue i.parameters) = values.map some ∧
        fieldTexts d m.parameters values = .ok texts ∧
        fieldTexts .spectre m.parameters values = .ok texts' ∧
        instanceLines d i (.primitive m) positional.table bindings
          = .ok ([Spice.nameLine .voltageSource i.name, Spice.nodesLine d bindings]
            ++ (form.clauses (texts.map (·.render d))).map (.continuation 0)
            ++ [paramsLine d 0 none left, .blank 0]) ∧
        let entries := ("type", form.type)
          :: form.spectreFields.zip (texts'.map (·.render .spectre)) ++ passed
        (entries.map (·.1)).Nodup ∧
        instanceLines .spectre i (.primitive m) named.table bindings'
          = .ok [.text 1 i.name, Spectre.nodesLine bindings', .continuation 1 "vsource",
            .continuation 1 (joinWords (entries.map fun entry => entry.1 ++ "=" ++ entry.2)),
            .blank 1] := by
  have mapped := Spectre.mapped_of_table builtin
  have merges := merged_of_resolveParams resolves
  have merges' := merged_of_resolveParams resolves'
  obtain ⟨form, known, same, fields, typed, spectreFields⟩ := form_of_source builtin source
  obtain ⟨values, texts, counted, converted, stored⟩ :=
    fieldTexts_of_resolved merges.valued (merges.resolved mapped.names)
  obtain ⟨values', texts', counted', converted', stored'⟩ :=
    fieldTexts_of_resolved merges'.valued (merges'.resolved mapped.names)
  -- which value counts does not depend on the dialect
  have values_eq : values' = values :=
    List.map_injective_iff.mpr (fun _ _ => Option.some.inj) (counted'.symm.trans counted)
  subst values_eq
  have found : form.fields.map positional.table.get? = texts.map some := by
    rw [← fields, List.map_map]
    exact stored
  obtain ⟨left, clauses⟩ := Spice.sourceClauses_of_form known d found
  have element : Spice.elementClauses d m positional.table
      = .ok ((form.clauses (texts.map (·.render d))).map (.continuation 0), left) := by
    rw [Spice.elementClauses, if_pos source, ← same]
    exact clauses
  obtain ⟨passed, split⟩ := names_split_of_resolveParams resolves' mapped.names
  obtain ⟨others, assigns⟩ := mapped.assigned_written typed split merges'.distinct stored'
  rw [spectreFields, List.cons_append] at assigns
  refine ⟨form, known, same, fields, values', texts, texts', left, others, counted, converted,
    converted', ?_, ?_, ?_⟩
  · rw [instanceLines, family, ← source]
    exact Spice.instanceLines_of_clauses element i bindings
  · have distinct := Spectre.Mapped.nodup_written (m := m) merges'.distinct
    rw [List.cons_append, ← assigns, Spectre.assigned, List.map_map]
    exact distinct
  · change Spectre.instanceLines .spectre i (.primitive m) named.table bindings' = _
    simp only [Spectre.instanceLines, Spectre.element_of_source source typed]
    rw [List.cons_append, ← Spectre.paramsLine_of_assigned assigns]
    rfl

/-- The sine source of the table. -/
def sineSource : ExternalModule :=
  Primitive.twoTerminal "vsin" .voltageSource SourceForm.sine.fields

/-- An instance of it whose fields are given out of order, among parameters that have the names of a
type and of a field in Spectre. -/
def crowdedSine : Instance :=
  { name := "in", reference := .external sineSource.name,
    parameters := [.withValue "delay" (.int 9), .withValue "phase" (.int 5),
      .withValue "td" (.int 4), .withValue "type" (.int 8), .withValue "freq" (.int 3),
      .withValue "vamp" (.int 2), .withValue "voff" (.int 1)] }

/-- The names that are taken already change nothing about the fields. -/
theorem source_layouts_agree_crowded :
    ∃ positional named,
      resolveParams .ngspice crowdedSine.parameters sineSource.parameters = .ok positional ∧
      resolveParams .spectre crowdedSine.parameters sineSource.parameters = .ok named ∧
      ∃ left passed,
        instanceLines .ngspice crowdedSine (.primitive sineSource) positional.table []
          = .ok [.text 0 "vin", Spice.nodesLine .ngspice [], .continuation 0 "sin(1 2 3 4 5)",
            paramsLine .ngspice 0 none left, .blank 0] ∧
        instanceLines .spectre crowdedSine (.primitive sineSource) named.table []
          = .ok [.text 1 "in", Spectre.nodesLine [], .continuation 1 "vsource",
            .continuation 1 (joinWords (["type=sine", "sinedc=1", "ampl=2", "freq=3", "delay=4",
              "sinephase=5"] ++ passed)), .blank 1] := by
  have builtin : sineSource ∈ Primitive.table := by decide
  have resolves : resolveParams .ngspice crowdedSine.parameters sineSource.parameters = .ok _ := rfl
  have resolves' :
      resolveParams .spectre crowdedSine.parameters sineSource.parameters = .ok _ := rfl
  obtain ⟨form, known, same, -, values, texts, texts', left, passed, counted, converted, converted',
    spice, -, spectre⟩ := source_layouts_agree builtin rfl rfl crowdedSine resolves resolves' [] []
  have sine : form = .sine := by
    have all : ∀ form ∈ sourceForms, form.source = "vsin" → form = .sine := by
      simp [sourceForms, SourceForm.constant, SourceForm.pulse]
    exact all form known same
  subst sine
  have given : values = [.int 1, .int 2, .int 3, .int 4, .int 5] :=
    List.map_injective_iff.mpr (fun _ _ => Option.some.inj) (counted.symm.trans rfl)
  subst given
  have fields : ∀ d : Dialect, fieldTexts d sineSource.parameters
      [.int 1, .int 2, .int 3, .int 4, .int 5]
        = .ok [{ text := "1" }, { text := "2" }, { text := "3" }, { text := "4" },
          { text := "5" }] :=
    fun _ => rfl
  obtain rfl := Except.ok.inj (converted.symm.trans (fields .ngspice))
  obtain rfl := Except.ok.inj (converted'.symm.trans (fields .spectre))
  refine ⟨_, _, resolves, resolves', left, passed.map fun entry => entry.1 ++ "=" ++ entry.2,
    ?_, ?_⟩
  · rw [spice]
    rfl
  · rw [spectre, List.map_append]
    rfl

end CircuitNetlist
