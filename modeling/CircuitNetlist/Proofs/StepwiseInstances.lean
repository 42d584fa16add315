import CircuitNetlist.Proofs.ParameterMerge
import CircuitNetlist.Proofs.CallsOfScripts

/-!
# Instances line by line

An ideal element in the Spice family is named and connected before its values are known to be
there: the first two lines can be written before the values are taken out of the parameters. Every
value that an element takes out is one that it declares, and all that is declared has been resolved
before. So writing each line as soon as it is known is no different from writing all lines at once.
-/
namespace CircuitNetlist

open Script

namespace ParamTable

theorem popMany_of_present {t : ParamTable} {names : List String} (distinct : names.Nodup)
    (present : ∀ name ∈ names, (t.get? name).isSome) :
    ∃ texts rest, t.popMany names = (.ok texts, rest) := by
  induction names generalizing t with
  | nil => exact ⟨[], t, rfl⟩
  | cons name names ih =>
      rw [List.nodup_cons] at distinct
      obtain ⟨text, found⟩ := Option.isSome_iff_exists.mp (present name List.mem_cons_self)
      have others : ∀ other ∈ names, ((t.erase name).get? other).isSome := by
        intro other mem
        have differ : other ≠ name := by
          rintro rfl
          exact distinct.1 mem
        rw [get?_erase, if_neg differ]
        exact present other (List.mem_cons_of_mem _ mem)
      obtain ⟨texts, rest, popped⟩ := ih distinct.2 others
      refine ⟨text :: texts, rest, ?_⟩
      simp only [popMany, pop, found, popped]

/-- Where several parameters are taken out, the first is taken out, and then the others. -/
theorem pop_of_popMany {t rest : ParamTable} {name : String} {names : List String}
    {texts : List ValueText} (h : t.popMany (name :: names) = (.ok texts, rest)) :
    ∃ text between others, texts = text :: others ∧ t.pop name = .ok (text, between) ∧
      between.popMany names = (.ok others, rest) := by
  rw [popMany] at h
  cases first : t.pop name with
  | error cause =>
      rw [first] at h
      cases (Prod.mk.inj h).1
  | ok both =>
      obtain ⟨text, between⟩ := both
      rw [first] at h
      cases popped : between.popMany names with
      | mk result left =>
          simp only [popped] at h
          cases result with
          | error cause => cases (Prod.mk.inj h).1
          | ok others =>
              obtain ⟨same, rfl⟩ := Prod.mk.inj h
              exact ⟨text, between, others, (Except.ok.inj same).symm, rfl, popped⟩

end ParamTable

/-! ### The values of an ideal element -/

namespace Spice

/-- The parameters that an ideal element takes out, in order. -/
def takenOut (m : ExternalModule) : List String :=
  if m.kind = .voltageSource then
    if m.name.name = "vdc" then ["dc", "ac"]
    else if m.name.name = "vpulse" then pulseFields
    else if m.name.name = "vsin" then sineFields
    else []
  else (positionalParam m.kind).toList

/-- What an element takes out it has declared, and it takes out something. -/
structure Takes (m : ExternalModule) : Prop where
  names : (m.parameters.map (·.name)).Nodup
  distinct : (takenOut m).Nodup
  declared : ∀ name ∈ takenOut m, name ∈ m.parameters.map (·.name)
  some : takenOut m ≠ []

theorem takes_of_table {m : ExternalModule} (builtin : m ∈ Primitive.table) : Takes m := by
  have all : ∀ m ∈ Primitive.table, (m.parameters.map (·.name)).Nodup ∧ (takenOut m).Nodup ∧
      (∀ name ∈ takenOut m, name ∈ m.parameters.map (·.name)) ∧ takenOut m ≠ [] := by
    decide
  obtain ⟨names, distinct, declared, some⟩ := all m builtin
  exact ⟨names, distinct, declared, some⟩

/-- Where everything that it takes out is there, an element has its clauses. -/
theorem elementClauses_of_present {m : ExternalModule} (takes : Takes m) (d : Dialect)
    {params : ParamTable} (present : ∀ name ∈ takenOut m, (params.get? name).isSome) :
    ∃ both, elementClauses d m params = .ok both := by
  obtain ⟨-, distinct, -, some⟩ := takes
  obtain ⟨texts, rest, popped⟩ := ParamTable.popMany_of_present distinct present
  unfold takenOut at popped some
  unfold elementClauses sourceClauses
  by_cases source : m.kind = .voltageSource
  · rw [if_pos source] at popped some ⊢
    by_cases constant : m.name.name = "vdc"
    · rw [if_pos constant] at popped ⊢
      obtain ⟨dc, between, others, -, first, later⟩ := ParamTable.pop_of_popMany popped
      obtain ⟨ac, left, -, -, second, -⟩ := ParamTable.pop_of_popMany later
      rw [first]
      change ∃ both, (between.pop "ac" >>= _) = .ok both
      rw [second]
      exact ⟨_, rfl⟩
    · rw [if_neg constant] at popped some ⊢
      by_cases pulse : m.name.name = "vpulse"
      · rw [if_pos pulse] at popped ⊢
        rw [popped]
        exact ⟨_, rfl⟩
      · rw [if_neg pulse] at popped some ⊢
        by_cases sine : m.name.name = "vsin"
        · rw [if_pos sine] at popped ⊢
          rw [popped]
          exact ⟨_, rfl⟩
        · exact absurd (if_neg sine) some
  · rw [if_neg source] at popped some ⊢
    cases taken : positionalParam m.kind with
    | none => exact absurd (by rw [taken]; rfl) some
    | some name =>
        rw [taken] at popped
        obtain ⟨value, left, -, -, first, -⟩ := ParamTable.pop_of_popMany popped
        change ∃ both, (params.pop name >>= _) = .ok both
        rw [first]
        exact ⟨_, rfl⟩

/-- An ideal element has its clauses for all overrides that resolve. -/
theorem elementClauses_of_table {m : ExternalModule} (builtin : m ∈ Primitive.table) (d : Dialect)
    {overrides : List Param} {merged : ResolvedParams}
    (resolves : resolveParams d overrides m.parameters = .ok merged) :
    ∃ both, elementClauses d m merged.table = .ok both := by
  have takes := takes_of_table builtin
  have merges := merged_of_resolveParams resolves
  apply elementClauses_of_present takes d
  intro name mem
  obtain ⟨p, declared, rfl⟩ := List.mem_map.mp (takes.declared name mem)
  exact (merges.resolved takes.names p declared).2

/-! ### Line by line -/

/-- The first lines of an instance. -/
def writeHead (d : Dialect) (kind : ElementKind) (i : Instance) (bindings : List PortBinding) :
    Script Unit := do
  write (nameLine kind i.name)
  write (nodesLine d bindings)

/-- The last lines of an instance. -/
def writeParams (d : Dialect) (keyword : Option String) (params : ParamTable) : Script Unit := do
  write (paramsLine d 0 keyword params)
  write (.blank 0)

/-- Writes an instance, each line as soon as it is known. Whether an element has a value to be
written by position is known from its kind; the value itself is taken out behind the nodes. -/
def instanceScript (d : Dialect) (i : Instance) (target : Resolved) (params : ParamTable)
    (bindings : List PortBinding) : Script Unit :=
  match target with
  | .internal _ name | .external _ name => do
    writeHead d .subcircuit i bindings
    write (.continuation 0 name)
    writeParams d d.paramsKeyword params
  | .model m name => do
    writeHead d m.kind i bindings
    write (.continuation 0 name)
    writeParams d none params
  | .primitive m => do
    if m.kind ≠ .voltageSource ∧ positionalParam m.kind = none then
      fail (.invalidPrimitive m.name.name m.kind)
    writeHead d m.kind i bindings
    let (clauses, params) ← check (elementClauses d m params)
    writeAll clauses
    writeParams d none params

/-- The lines of an ideal element whose clauses are known. -/
theorem instanceLines_of_clauses {d : Dialect} {m : ExternalModule} {params left : ParamTable}
    {clauses : List Line} (found : elementClauses d m params = .ok (clauses, left)) (i : Instance)
    (bindings : List PortBinding) :
    instanceLines d i (.primitive m) params bindings =
      .ok ([nameLine m.kind i.name, nodesLine d bindings] ++ clauses
        ++ [paramsLine d 0 none left, .blank 0]) := by
  simp only [instanceLines, found]
  rfl

/-- Where the values are there, the lines are written as if they were all known before. -/
theorem instanceScript_eq {d : Dialect} {i : Instance} {target : Resolved} {params : ParamTable}
    {bindings : List PortBinding}
    (values : ∀ m, target = .primitive m → ∃ both, elementClauses d m params = .ok both) :
    instanceScript d i target params bindings =
      check (instanceLines d i target params bindings) >>= writeAll := by
  cases target with
  | internal definition name => rfl
  | external definition name => rfl
  | model definition name => rfl
  | primitive m =>
      obtain ⟨⟨clauses, left⟩, found⟩ := values m rfl
      have known : ¬ (m.kind ≠ .voltageSource ∧ positionalParam m.kind = none) := by
        intro unknown
        rw [elementClauses, if_neg unknown.1, unknown.2] at found
        cases found
      rw [instanceScript, if_neg known, found, instanceLines_of_clauses found]
      change writeHead d m.kind i bindings >>= (fun _ => writeAll clauses
        >>= fun _ => writeParams d none left) = writeAll _
      rw [writeAll_append, writeAll_append, bind_assoc]
      rfl

end Spice

/-- Writes the lines of an instance, each as soon as it is known. In the other families what may be
missing is known before the first line. -/
def layoutScript (d : Dialect) (i : Instance) (target : Resolved) (params : ParamTable)
    (bindings : List PortBinding) : Script Unit :=
  match d.family with
  | .spice => Spice.instanceScript d i target params bindings
  | .spectre => check (Spectre.instanceLines d i target params bindings) >>= writeAll
  | .verilog => check (Verilog.instanceLines d i target params bindings) >>= writeAll

/-- A reference stands for no other ideal elements than those of the table. -/
theorem mem_table_of_resolve {s after : Scope} {reference : Reference} {m : ExternalModule}
    (h : s.resolve reference = (.ok (.primitive m), after)) : m ∈ Primitive.table := by
  cases (Scope.standsFor_of_resolve h).1 with
  | primitive mem => exact mem

/-- Writes one instance of a module with the given signals, line by line. -/
def Instance.stepwise (d : Dialect) (signals : SignalTable) (scope : Scope) (i : Instance) :
    Script Scope :=
  Script.within (.instanceNamed i.name) do
    let (target, scope) ← use (scope.resolve i.reference)
    let params ← check (resolveParams d i.parameters target.parameters)
    warnUndeclared params.undeclared
    let bindings ← check (bindPorts d signals target i.connections)
    log .debug s!"writing instance `{i.name}` of {i.reference.text}"
    layoutScript d i target params.table bindings
    return scope

/-- After a step only what follows its good end counts. -/
theorem bind_check_congr {α β : Type} {step : Except Cause α} {f g : α → Script β}
    (same : ∀ a, step = .ok a → f a = g a) : check step >>= f = check step >>= g := by
  cases step with
  | error cause => rfl
  | ok a => exact same a rfl

theorem bind_use_congr {α β : Type} {step : Except Cause α × Scope} {f g : α × Scope → Script β}
    (same : ∀ a after, step = (.ok a, after) → f (a, after) = g (a, after)) :
    use step >>= f = use step >>= g := by
  rw [use_bind, use_bind]
  apply congrArg (enter step.2 >>= ·)
  funext _
  apply bind_check_congr
  intro a ok
  exact same a step.2 (Prod.ext ok rfl)

section Stepwise
variable {d : Dialect} {scope after : Scope} {i : Instance} {target : Resolved}
  {merged : ResolvedParams}

theorem layoutScript_eq (resolved : scope.resolve i.reference = (.ok target, after))
    (resolves : resolveParams d i.parameters target.parameters = .ok merged)
    (bindings : List PortBinding) :
    layoutScript d i target merged.table bindings =
      check (instanceLines d i target merged.table bindings) >>= writeAll := by
  unfold layoutScript instanceLines
  cases d.family with
  | spice =>
      apply Spice.instanceScript_eq
      rintro m rfl
      exact Spice.elementClauses_of_table (mem_table_of_resolve resolved) d resolves
  | spectre => rfl
  | verilog => rfl

/-- It makes no difference whether the lines of an instance are written one by one. -/
theorem Instance.stepwise_eq_script (d : Dialect) (t : SignalTable) (scope : Scope)
    (i : Instance) : i.stepwise d t scope = i.script d t scope := by
  unfold stepwise script
  apply congrArg (within _)
  apply bind_use_congr
  intro target next resolved
  apply bind_check_congr
  intro merged resolves
  apply congrArg (warnUndeclared merged.undeclared >>= ·)
  funext _
  apply congrArg (check (bindPorts d t target i.connections) >>= ·)
  funext bindings
  apply congrArg (log .debug _ >>= ·)
  funext _
  rw [layoutScript_eq resolved resolves, bind_assoc]

end Stepwise

end CircuitNetlist
