import CircuitNetlist.Proofs.VoltageSources

/-!
# What an ideal element does with its parameters

In the Spice family the values that an ideal element declares stand by position, and all other
parameters of the instance on the line behind them. What is written by position is taken out of the
resolved parameters in a fixed order, by name; the order is that of the declarations, and what is
taken out are all declared parameters. So no parameter is lost and none is written twice.
-/
namespace CircuitNetlist

/-- What is left are the other parameters, in their order. -/
theorem ParamTable.entries_left_of_popMany {t left : ParamTable} {names : List String}
    {texts : List ValueText} (popped : t.popMany names = (.ok texts, left)) :
    left.entries = t.entries.filter (·.1 ∉ names) := by
  induction names generalizing t texts with
  | nil =>
      obtain rfl := (Prod.mk.inj popped).2
      simp
  | cons name names ih =>
      obtain ⟨text, between, others, -, first, later⟩ := pop_of_popMany popped
      obtain ⟨-, rfl⟩ := pop_eq_ok.mp first
      rw [ih later, erase, List.filter_filter]
      apply List.filter_congr
      intro entry _
      rw [Bool.eq_iff_iff]
      simp [and_comm]

/-- Where the names that are taken out stand in front, what stands behind them is left. -/
theorem ParamTable.left_of_popMany {t left : ParamTable} {names : List String}
    {texts texts' : List ValueText} {behind : List (String × ValueText)} (distinct : t.names.Nodup)
    (split : t.entries = names.zip texts ++ behind) (counted : names.length = texts.length)
    (popped : t.popMany names = (.ok texts', left)) : left.entries = behind := by
  have front : (names.zip texts).map (·.1) = names := List.map_fst_zip (Nat.le_of_eq counted)
  have all : t.names = names ++ behind.map (·.1) := by
    rw [ParamTable.names, split, List.map_append, front]
  rw [all, List.nodup_append] at distinct
  rw [entries_left_of_popMany popped, split, List.filter_append]
  have taken : (names.zip texts).filter (·.1 ∉ names) = [] := by
    rw [List.filter_eq_nil_iff]
    intro entry mem
    simpa using (List.of_mem_zip mem).1
  have kept : behind.filter (·.1 ∉ names) = behind := by
    rw [List.filter_eq_self]
    intro entry mem
    rw [decide_eq_true_iff]
    intro declared
    exact distinct.2.2 entry.1 declared entry.1 (List.mem_map_of_mem mem) rfl
  rw [taken, kept, List.nil_append]

namespace Spice

/-- How the values of an ideal element stand by position: those of a voltage source in its clauses,
that of any other element by itself. -/
def positionalTexts (m : ExternalModule) (values : List String) : List String :=
  match sourceForms.find? (·.source == m.name.name) with
  | some form => form.clauses values
  | none => values

theorem positionalTexts_of_form {m : ExternalModule} {form : SourceForm}
    (known : form ∈ sourceForms) (named : form.source = m.name.name) (values : List String) :
    positionalTexts m values = form.clauses values := by
  have distinct : (sourceForms.map (·.source)).Nodup := by decide
  rw [positionalTexts, ← named, find?_of_nodup distinct known]

/-- An element that is no voltage source has one parameter, which is the one written by position. -/
theorem positional_of_table {m : ExternalModule} (builtin : m ∈ Primitive.table)
    (other : m.kind ≠ .voltageSource) :
    ∃ name, positionalParam m.kind = some name ∧ m.parameters.map (·.name) = [name] ∧
      ∀ values, positionalTexts m values = values := by
  have all : ∀ m ∈ Primitive.table, m.kind ≠ .voltageSource → (positionalParam m.kind).isSome ∧
      m.parameters.map (·.name) = (positionalParam m.kind).toList ∧
      (sourceForms.find? (·.source == m.name.name)).isNone := by
    decide
  obtain ⟨present, declared, unknown⟩ := all m builtin other
  obtain ⟨name, positional⟩ := Option.isSome_iff_exists.mp present
  rw [positional] at declared
  refine ⟨name, positional, declared, ?_⟩
  intro values
  rw [positionalTexts, Option.isNone_iff_eq_none.mp unknown]

/-- What is taken out is written by position. -/
theorem elementClauses_of_popped {m : ExternalModule} (builtin : m ∈ Primitive.table) (d : Dialect)
    {t left : ParamTable} {texts : List ValueText}
    (popped : t.popMany (m.parameters.map (·.name)) = (.ok texts, left)) :
    elementClauses d m t
      = .ok ((positionalTexts m (texts.map (·.render d))).map (.continuation 0), left) := by
  by_cases source : m.kind = .voltageSource
  · obtain ⟨form, known, named, fields, -, -⟩ := form_of_source builtin source
    rw [fields] at popped
    rw [elementClauses, if_pos source, positionalTexts_of_form known named, ← named]
    exact sourceClauses_of_popped known d popped
  · obtain ⟨name, positional, declared, alone⟩ := positional_of_table builtin source
    rw [declared] at popped
    obtain ⟨text, between, others, rfl, first, later⟩ := ParamTable.pop_of_popMany popped
    obtain ⟨same, rfl⟩ := Prod.mk.inj later
    obtain rfl := Except.ok.inj same
    rw [elementClauses, if_neg source, positional, alone]
    change (t.pop name >>= _) = _
    rw [first]
    rfl

end Spice

/-- In the Spice family an instance of an ideal element is written for all overrides that resolve,
and the text keeps its parameters: the declared ones stand by position, in declared order, and all
others behind them as `name=value`, in resolved order. Together they are the resolved parameters,
each of which stands there once. -/
theorem element_text_conserves_parameters {m : ExternalModule} (builtin : m ∈ Primitive.table)
    {d : Dialect} (family : d.family = .spice) {overrides : List Param} {merged : ResolvedParams}
    (resolves : resolveParams d overrides m.parameters = .ok merged) (i : Instance)
    (bindings : List PortBinding) :
    ∃ texts left,
      m.parameters.map (fun p => (givenText d overrides p.name).or (p.text? d)) = texts.map some ∧
      merged.table.entries = (m.parameters.map (·.name)).zip texts ++ left ∧
      merged.table.names.Nodup ∧ left.map (·.1) = merged.undeclared ∧
      instanceLines d i (.primitive m) merged.table bindings
        = .ok ([Spice.nameLine m.kind i.name, Spice.nodesLine d bindings]
          ++ (Spice.positionalTexts m (texts.map (·.render d))).map (.continuation 0)
          ++ [if left.isEmpty then .comment d 0 "No parameters"
              else .continuation 0
                (joinWords (left.map fun entry => entry.1 ++ "=" ++ entry.2.render d)),
            .blank 0]) := by
  have names := (Spice.takes_of_table builtin).names
  have merges := merged_of_resolveParams resolves
  obtain ⟨order, -⟩ := names_of_resolveParams resolves
  rw [eraseDups_of_nodup names] at order
  -- the declared parameters stand in front, with the values that count for them
  obtain ⟨-, texts, -, -, stored⟩ := fieldTexts_of_resolved merges.valued (merges.resolved names)
  have found : (m.parameters.map (·.name)).map merged.table.get? = texts.map some := by
    rw [List.map_map]
    exact stored
  have counted : (m.parameters.map (·.name)).length = texts.length := by
    simpa using congrArg List.length stored
  have inFront : merged.table.names
      = [] ++ m.parameters.map (·.name) ++ merged.undeclared := order
  obtain ⟨before, left, entries, none, passed⟩ :=
    ParamTable.entries_of_split merges.distinct inFront found
  obtain rfl := List.map_eq_nil_iff.mp none
  obtain ⟨rest, popped⟩ := Spice.popMany_of_fields names found
  obtain rfl : rest = ⟨left⟩ := by
    rcases rest with ⟨others⟩
    exact congrArg ParamTable.mk
      (ParamTable.left_of_popMany merges.distinct entries counted popped)
  refine ⟨texts, left, ?_, entries, merges.distinct, passed, ?_⟩
  · rw [← stored]
    apply List.map_congr_left
    intro p declared
    exact (merges.resolved names p declared).1.symm
  · have clauses := Spice.elementClauses_of_popped builtin d popped
    rw [instanceLines, family]
    exact Spice.instanceLines_of_clauses clauses i bindings

/-- The pulse source of the table. -/
def pulseSource : ExternalModule :=
  Primitive.twoTerminal "vpulse" .voltageSource SourceForm.pulse.fields

/-- An instance of it whose fields are given out of order, among two parameters of other names. -/
def shuffledPulse : Instance :=
  { name := "clk", reference := .external pulseSource.name,
    parameters := [.withValue "m" (.int 8), .withValue "tper" (.int 7), .withValue "td" (.int 3),
      .withValue "v2" (.int 2), .withValue "v1" (.int 1), .withValue "tpw" (.int 6),
      .withValue "jitter" (.literal "2*s"), .withValue "tf" (.int 5), .withValue "tr" (.int 4)] }

theorem element_text_conserves_parameters_shuffled :
    ∃ merged, resolveParams .xyce shuffledPulse.parameters pulseSource.parameters = .ok merged ∧
      instanceLines .xyce shuffledPulse (.primitive pulseSource) merged.table []
        = .ok [.text 0 "vclk", Spice.nodesLine .xyce [], .continuation 0 "pulse(1 2 3 4 5 6 7)",
          .continuation 0 "m=8 jitter=\x7b2*s\x7d", .blank 0] := by
  have builtin : pulseSource ∈ Primitive.table := by decide
  have resolves : resolveParams .xyce shuffledPulse.parameters pulseSource.parameters = .ok _ := rfl
  obtain ⟨texts, left, values, entries, -, -, lines⟩ :=
    element_text_conserves_parameters builtin rfl resolves shuffledPulse []
  have given : texts = [{ text := "1" }, { text := "2" }, { text := "3" }, { text := "4" },
      { text := "5" }, { text := "6" }, { text := "7" }] :=
    List.map_injective_iff.mpr (fun _ _ => Option.some.inj) (values.symm.trans rfl)
  subst given
  obtain rfl :
      [("m", { text := "8" }), ("jitter", { text := "2*s", isExpression := true })] = left :=
    congrArg (List.drop 7) entries
  exact ⟨_, resolves, lines⟩

end CircuitNetlist
