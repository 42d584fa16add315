import CircuitNetlist.Proofs.AcceptedRuns
import CircuitNetlist.Proofs.ReachableSessions
import CircuitNetlist.Proofs.SpectreFields
import CircuitNetlist.Proofs.StepwiseInstances

/-!
# Rejected instances

An instance that is at fault is rejected before its first line, although its lines are written one
by one: what the layout of an ideal element takes out of the parameters is always there, and what
the other layouts refuse they refuse at once. So a rejected instance leaves neither text nor
indentation behind. Its reference may have been resolved, but in a scope that is in order resolving
changes nothing.
-/
namespace CircuitNetlist

namespace Script
variable {α β : Type}

/-- The script writes nothing where it ends in a fault. -/
def AllOrNothing (m : Script α) : Prop :=
  ∀ fault, m.result = .error fault → m.lines = []

theorem AllOrNothing.of_ok {m : Script α} {a : α} (ok : m.result = .ok a) : m.AllOrNothing := by
  intro fault failed
  rw [ok] at failed
  cases failed

/-- What writes nothing may stand in front. -/
theorem AllOrNothing.bind_of_silent {m : Script α} {f : α → Script β} (silent : m.lines = [])
    (rest : ∀ a, (f a).AllOrNothing) : (m >>= f).AllOrNothing := by
  intro fault failed
  cases result : m.result with
  | error first =>
      rw [bind_of_error result]
      exact silent
  | ok a =>
      rw [bind_of_ok result] at failed
      rw [lines_bind_of_ok result, silent, rest a fault failed]
      rfl

theorem AllOrNothing.within {m : Script α} (h : m.AllOrNothing) (place : Place) :
    (m.within place).AllOrNothing := by
  intro fault failed
  rw [lines_within]
  cases result : m.result with
  | error first => exact h first result
  | ok a =>
      rw [Script.within, result] at failed
      cases failed

end Script

open Script

/-- An instance is written as a whole or not at all. -/
theorem Instance.allOrNothing_script (d : Dialect) (t : SignalTable) (scope : Scope)
    (i : Instance) : (i.script d t scope).AllOrNothing := by
  unfold Instance.script
  apply AllOrNothing.within
  apply AllOrNothing.bind_of_silent (lines_use _)
  rintro ⟨target, next⟩
  apply AllOrNothing.bind_of_silent (lines_check _)
  intro merged
  apply AllOrNothing.bind_of_silent (lines_warnUndeclared _)
  intro _
  apply AllOrNothing.bind_of_silent (lines_check _)
  intro bindings
  apply AllOrNothing.bind_of_silent rfl
  intro _
  apply AllOrNothing.bind_of_silent (lines_check _)
  intro lines
  exact AllOrNothing.of_ok rfl

/-! ### What a layout refuses -/

theorem Spice.instanceLines_isOk {d : Dialect} {target : Resolved} {params : ParamTable}
    (values : ∀ m, target = .primitive m → ∃ both, elementClauses d m params = .ok both)
    (i : Instance) (bindings : List PortBinding) :
    ∃ lines, instanceLines d i target params bindings = .ok lines := by
  cases target with
  | internal definition name => exact ⟨_, rfl⟩
  | external definition name => exact ⟨_, rfl⟩
  | model definition name => exact ⟨_, rfl⟩
  | primitive m =>
      obtain ⟨⟨clauses, left⟩, found⟩ := values m rfl
      exact ⟨_, instanceLines_of_clauses found i bindings⟩

theorem Spectre.instanceLines_isOk {target : Resolved}
    (builtin : ∀ m, target = .primitive m → m ∈ Primitive.table) (d : Dialect) (i : Instance)
    (params : ParamTable) (bindings : List PortBinding) :
    ∃ lines, instanceLines d i target params bindings = .ok lines := by
  cases target with
  | internal definition name => exact ⟨_, rfl⟩
  | external definition name => exact ⟨_, rfl⟩
  | model definition name => exact ⟨_, rfl⟩
  | primitive m =>
      obtain ⟨name, found⟩ := element_of_table (builtin m rfl) params
      simp only [instanceLines, found]
      exact ⟨_, rfl⟩

theorem Verilog.instanceLines_eq_error {d : Dialect} {i : Instance} {target : Resolved}
    {params : ParamTable} {bindings : List PortBinding} {cause : Cause}
    (failed : instanceLines d i target params bindings = .error cause) :
    ∃ feature, cause = .unsupported d.format feature := by
  cases target with
  | internal definition name => cases failed
  | external definition name => cases failed
  | primitive m => exact ⟨_, (Except.error.inj failed).symm⟩
  | model definition name => exact ⟨_, (Except.error.inj failed).symm⟩

/-- Outside of Verilog a layout refuses nothing that has been resolved. -/
theorem instanceLines_isOk {d : Dialect} (expands : d.family ≠ .verilog) {scope after : Scope}
    {i : Instance} {target : Resolved} {merged : ResolvedParams}
    (resolved : scope.resolve i.reference = (.ok target, after))
    (resolves : resolveParams d i.parameters target.parameters = .ok merged)
    (bindings : List PortBinding) :
    ∃ lines, instanceLines d i target merged.table bindings = .ok lines := by
  have builtin : ∀ m, target = .primitive m → m ∈ Primitive.table := by
    rintro m rfl
    exact mem_table_of_resolve resolved
  unfold instanceLines
  cases family : d.family with
  | spice =>
      apply Spice.instanceLines_isOk
      rintro m rfl
      exact Spice.elementClauses_of_table (builtin m rfl) d resolves
  | spectre => exact Spectre.instanceLines_isOk builtin d i merged.table bindings
  | verilog => exact absurd family expands

/-- In a layout nothing fails but what the format cannot express. -/
theorem layoutScript_eq_error {d : Dialect} {scope after : Scope} {i : Instance}
    {target : Resolved} {merged : ResolvedParams}
    (resolved : scope.resolve i.reference = (.ok target, after))
    (resolves : resolveParams d i.parameters target.parameters = .ok merged)
    {bindings : List PortBinding} {fault : Fault}
    (failed : (layoutScript d i target merged.table bindings).result = .error fault) :
    d.family = .verilog ∧ ∃ feature, fault = .plain (.unsupported d.format feature) := by
  rw [layoutScript_eq resolved resolves] at failed
  cases ends : instanceLines d i target merged.table bindings with
  | ok lines =>
      simp only [ends] at failed
      cases failed
  | error cause =>
      by_cases verilog : d.family = .verilog
      · refine ⟨verilog, ?_⟩
        simp only [ends] at failed
        simp only [instanceLines, verilog] at ends
        obtain ⟨feature, rfl⟩ := Verilog.instanceLines_eq_error ends
        exact ⟨feature, (Except.error.inj failed).symm⟩
      · obtain ⟨lines, laid⟩ := instanceLines_isOk verilog resolved resolves bindings
        cases ends.symm.trans laid

namespace Session

/-- What writes no line leaves the sink and the depth alone. -/
theorem play_of_silent {s : Session} {base : Nat} {events : List Event}
    (silent : events.filterMap Event.line? = []) :
    (s.play base events).1.sink = s.sink ∧ (s.play base events).1.depth = s.depth := by
  induction events generalizing s with
  | nil => exact ⟨rfl, rfl⟩
  | cons event events ih =>
      rw [List.filterMap_cons] at silent
      rcases event with ⟨places, action⟩
      cases action with
      | write line => cases silent
      | log record => exact ih silent
      | enter scope => exact ih silent
      | flush =>
          rw [play]
          cases performed : s.perform base .flush with
          | mk next refused =>
              obtain rfl : s = next := congrArg Prod.fst performed
              cases refused with
              | some fault => exact ⟨rfl, rfl⟩
              | none => exact ih silent

/-- Writes an instance of a module whose lines start at depth `base`, line by line. -/
def writeInstance (s : Session) (base : Nat) (t : SignalTable) (i : Instance) :
    Except Fault Scope × Session :=
  let m := i.stepwise s.dialect t s.scope
  ending s.depth m.result (s.play base m.events).1 (s.play base m.events).2

/-- What is left of a call that ends in a fault of its own. -/
theorem writeInstance_eq_error {s : Session} {base : Nat} {t : SignalTable} {i : Instance}
    {fault : Fault} (failed : (s.writeInstance base t i).1 = .error fault)
    (own : fault.kind ≠ .output) :
    (i.script s.dialect t s.scope).result = .error fault ∧
      (s.writeInstance base t i).2
        = (s.play base (i.script s.dialect t s.scope).events).1 := by
  unfold writeInstance at failed ⊢
  rw [Instance.stepwise_eq_script] at failed ⊢
  cases played : s.play base (i.script s.dialect t s.scope).events with
  | mk after refused =>
      simp only [played] at failed ⊢
      cases refused with
      | some other =>
          obtain rfl := Except.error.inj failed
          exact absurd (kind_of_refused played) own
      | none =>
          cases result : (i.script s.dialect t s.scope).result with
          | ok a =>
              rw [result] at failed
              cases failed
          | error other =>
              rw [result] at failed
              exact ⟨failed, rfl⟩

/-- Resolving the reference of an instance leaves a scope that is in order as it is. -/
theorem scope_play_instance {s : Session} (order : s.scope.InOrder) (base : Nat) (t : SignalTable)
    (i : Instance) : (s.play base (i.script s.dialect t s.scope).events).1.scope = s.scope := by
  obtain ⟨all, within, entered⟩ := (i.makes_script s.dialect t s.scope).started
  have trail : (i.script s.dialect t s.scope).events.filterMap Event.scope?
      <+: s.scope.trail all := by
    rw [← entered]
    exact List.prefix_refl _
  obtain ⟨made, first, last⟩ := scope_play_of_trail s base trail
  rw [last]
  rcases List.prefix_cons_iff.mp (first.trans within) with rfl | ⟨more, rfl, none⟩
  · rfl
  · obtain rfl := List.prefix_nil.mp none
    exact order.after_resolve i.reference

end Session

/-- In any session that can be met, an instance that is rejected for a fault of its own leaves no
text, no indentation and no name behind, although its lines are written one by one. The layouts
contribute nothing to such faults but what the format cannot express at all: the values that an
ideal element takes out are there for all overrides that resolve. -/
theorem rejected_instance_leaves_no_trace {s : Session} (reachable : s.Reachable) (base : Nat)
    (t : SignalTable) (i : Instance) :
    (∀ fault, (s.writeInstance base t i).1 = .error fault → fault.kind ≠ .output →
      (s.writeInstance base t i).2.sink = s.sink ∧
        (s.writeInstance base t i).2.depth = s.depth ∧
        (s.writeInstance base t i).2.scope = s.scope) ∧
    i.stepwise s.dialect t s.scope = i.script s.dialect t s.scope ∧
    (∀ m ∈ Primitive.table, ∀ overrides merged,
      resolveParams s.dialect overrides m.parameters = .ok merged →
        ∃ both, Spice.elementClauses s.dialect m merged.table = .ok both) ∧
    ∀ target after merged bindings fault, s.scope.resolve i.reference = (.ok target, after) →
      resolveParams s.dialect i.parameters target.parameters = .ok merged →
      (layoutScript s.dialect i target merged.table bindings).result = .error fault →
        s.dialect.family = .verilog ∧
          ∃ feature, fault = .plain (.unsupported s.dialect.format feature) := by
  refine ⟨?_, i.stepwise_eq_script s.dialect t s.scope, ?_, ?_⟩
  · intro fault failed own
    obtain ⟨result, left⟩ := Session.writeInstance_eq_error failed own
    have silent := i.allOrNothing_script s.dialect t s.scope fault result
    have kept := @Session.play_of_silent s base _ silent
    rw [left]
    exact ⟨kept.1, kept.2, Session.scope_play_instance reachable.inOrder base t i⟩
  · intro m builtin overrides merged resolves
    exact Spice.elementClauses_of_table builtin s.dialect resolves
  · intro target after merged bindings fault resolved resolves failed
    exact layoutScript_eq_error resolved resolves failed

/-- A module with the two ports `p` and `n`. -/
def twoPorts : Module :=
  { name := "two", ports := [{ signal := "p" }, { signal := "n" }],
    signals := [.scalar "p", .scalar "n"] }

/-- A session that has just begun to write it. -/
def defining : Session :=
  let session : Session := { dialect := .spice }
  (session.play session.depth ((session.eventsOf (.definition twoPorts)).take 1)).1

/-- An instance of it with one port left open. -/
def halfConnected : Instance :=
  { name := "t0", reference := .internal "two", connections := [⟨"p", .signal "p"⟩] }

/-- The open port is found, and what has been done before is all there is. -/
theorem rejected_instance_leaves_no_trace_open_port :
    defining.Reachable ∧ defining.scope.modules = [twoPorts] ∧
      ∃ t, SignalTable.ofModule twoPorts = .ok t ∧
        (defining.writeInstance 0 t halfConnected).1
          = .error (.ofPlaces [.instanceNamed "t0"] (.unconnectedPort "n")) ∧
        (defining.writeInstance 0 t halfConnected).2.sink = defining.sink ∧
        (defining.writeInstance 0 t halfConnected).2.depth = defining.depth ∧
        (defining.writeInstance 0 t halfConnected).2.scope = defining.scope := by
  have opened : Session.open? .spice {} {} = .ok { dialect := .spice } := rfl
  have reachable : defining.Reachable := .amid (.opened opened) (.definition twoPorts) 1
  have table : SignalTable.ofModule twoPorts = .ok _ := rfl
  refine ⟨reachable, rfl, _, table, rfl, ?_⟩
  exact (rejected_instance_leaves_no_trace reachable 0 _ halfConnected).1
    (.ofPlaces [.instanceNamed "t0"] (.unconnectedPort "n")) rfl (by decide)

end CircuitNetlist
