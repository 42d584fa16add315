import CircuitNetlist.Proofs.RejectedInstances

/-!
# How packages end

The result of a script is that of its steps, whatever they write. In the Spice family and in Spectre
most of these steps cannot fail: an instance is accepted as soon as its reference, its parameters
and its connections are, and a module as soon as its netlist name, its signals, its defaults and its
instances are. So whether a package is accepted, and what is wrong with it otherwise, is decided
without a line of it.
-/
namespace CircuitNetlist

/-- A step whose fault is met at no place in particular. -/
def asFault {α : Type} (step : Except Cause α) : Except Fault α :=
  step.mapError .plain

/-- Steps whose faults are met within one more place. -/
def locate {α : Type} (place : Place) (steps : Except Fault α) : Except Fault α :=
  steps.mapError (·.within place)

namespace Script
variable {α β σ κ : Type}

theorem result_bind (m : Script α) (f : α → Script β) :
    (m >>= f).result = m.result >>= fun a => (f a).result := by
  cases result : m.result with
  | error fault =>
      rw [bind_of_error result]
      rfl
  | ok a =>
      rw [bind_of_ok result]
      rfl

/-- What always ends well decides nothing. -/
theorem result_bind_of_ok {m : Script α} {a : α} (ok : m.result = .ok a) (f : α → Script β) :
    (m >>= f).result = (f a).result := by
  rw [bind_of_ok ok]

theorem result_foldlM (step : σ → κ → Script σ) (s : σ) (xs : List κ) :
    (xs.foldlM step s).result = xs.foldlM (fun s x => (step s x).result) s := by
  induction xs generalizing s with
  | nil => rfl
  | cons x xs ih =>
      rw [List.foldlM_cons, List.foldlM_cons, result_bind]
      simp only [ih]

theorem result_check (step : Except Cause α) : (check step).result = asFault step := by
  cases step with
  | error cause => rfl
  | ok a => rfl

/-- A step in front of what is known already. -/
theorem result_check_bind {step : Except Cause α} {f : α → Script β} {g : α → Except Cause β}
    (rest : ∀ a, step = .ok a → (f a).result = asFault (g a)) :
    (check step >>= f).result = asFault (step >>= g) := by
  cases ends : step with
  | error cause => rfl
  | ok a => exact (result_bind_of_ok rfl f).trans (rest a ends)

theorem result_use (step : Except Cause α × Scope) :
    (use step).result = asFault (Scope.outcome step) := by
  rcases step with ⟨cause | a, after⟩
  · rfl
  · rfl

theorem result_use_bind {step : Except Cause α × Scope} {f : α × Scope → Script β}
    {g : α × Scope → Except Cause β}
    (rest : ∀ a after, step = (.ok a, after) → (f (a, after)).result = asFault (g (a, after))) :
    (use step >>= f).result = asFault (Scope.outcome step >>= g) := by
  rcases step with ⟨cause | a, after⟩
  · rfl
  · exact (result_bind_of_ok rfl f).trans (rest a after rfl)

theorem result_within (place : Place) (m : Script α) :
    (m.within place).result = locate place m.result := rfl

theorem result_warnUndeclared (names : List String) : (warnUndeclared names).result = .ok () := by
  induction names with
  | nil => rfl
  | cons name names ih => exact (result_bind_of_ok rfl _).trans ih

end Script

open Script

/-! ### Steps that only differ in what they make -/

section Ends
variable {ε α β γ κ : Type}

/-- How a step ends, without its value. -/
def ends (step : Except ε α) : Except ε Unit :=
  step.map fun _ => ()

theorem ends_eq_error {step : Except ε α} {e : ε} : ends step = .error e ↔ step = .error e := by
  cases step with
  | error e' => simp [ends, Except.map]
  | ok a => simp [ends, Except.map]

theorem ends_bind_pure (x : Except ε α) (f : α → β) :
    ends (x >>= fun a => pure (f a)) = ends x := by
  cases x with
  | error e => rfl
  | ok a => rfl

theorem bind_congr_ends {x : Except ε α} {y : Except ε β} (same : ends x = ends y)
    (z : Except ε γ) : (x >>= fun _ => z) = y >>= fun _ => z := by
  have own : ∀ {δ : Type} (x : Except ε δ), (x >>= fun _ => z) = ends x >>= fun _ => z := by
    intro δ x
    cases x with
    | error e => rfl
    | ok a => rfl
  rw [own x, own y, same]

theorem ends_mapM {f : κ → Except ε α} {g : κ → Except ε β} (same : ∀ x, ends (f x) = ends (g x))
    (xs : List κ) : ends (xs.mapM f) = ends (xs.mapM g) := by
  induction xs with
  | nil => rfl
  | cons x xs ih =>
      have rest : ∀ {δ : Type} (h : κ → Except ε δ),
          ends ((x :: xs).mapM h) = h x >>= fun _ => ends (xs.mapM h) := by
        intro δ h
        rw [List.mapM_cons]
        cases h x with
        | error e => rfl
        | ok y => exact ends_bind_pure _ _
      rw [rest f, rest g, ih]
      exact bind_congr_ends (same x) _

end Ends

/-! ### Instances -/

section Instances
variable {d : Dialect}

/-- What an instance is accepted for: its reference, its parameters and its connections. -/
def Instance.accept (d : Dialect) (t : SignalTable) (scope : Scope) (i : Instance) :
    Except Cause Scope := do
  let (target, after) ← Scope.outcome (scope.resolve i.reference)
  let _ ← resolveParams d i.parameters target.parameters
  let _ ← bindPorts d t target i.connections
  return after

theorem Instance.result_script (expands : d.family ≠ .verilog) (t : SignalTable) (scope : Scope)
    (i : Instance) :
    (i.script d t scope).result
      = locate (.instanceNamed i.name) (asFault (i.accept d t scope)) := by
  unfold Instance.script Instance.accept
  rw [result_within]
  apply congrArg (locate (.instanceNamed i.name))
  apply result_use_bind
  intro target after resolved
  apply result_check_bind
  intro merged resolves
  rw [result_bind_of_ok (result_warnUndeclared _)]
  apply result_check_bind
  intro bindings _
  rw [result_bind_of_ok rfl]
  obtain ⟨lines, laid⟩ := instanceLines_isOk expands resolved resolves bindings
  rw [laid]
  rfl

end Instances

/-! ### Modules and packages -/

theorem asFault_ends {α : Type} (step : Except Cause α) :
    asFault (ends step) = ends (asFault step) := by
  cases step with
  | error cause => rfl
  | ok a => rfl

theorem ends_ends {ε α : Type} (step : Except ε α) : ends (ends step) = ends step := by
  cases step with
  | error e => rfl
  | ok a => rfl

/-- The default of a declared parameter, where the dialect asks for one. -/
def declaredDefault (d : Dialect) (p : Param) : Except Cause ValueText :=
  match p.value with
  | none => throw (.missingDefault p.name)
  | some value => paramText d p.name value

section Modules
variable {d : Dialect}

/-- Declarations fail only for the sake of their defaults. -/
theorem ends_declarations (d : Dialect) (declared : List Param) :
    ends (declarations d declared) = ends (declared.mapM (declaredDefault d)) := by
  apply ends_mapM
  intro p
  unfold declaredDefault
  cases p.value with
  | none => rfl
  | some value => exact ends_bind_pure _ _

theorem Spice.ends_parametersLine (d : Dialect) (declared : List Param) :
    ends (Spice.parametersLine d declared) = ends (declared.mapM (declaredDefault d)) := by
  rw [← ends_declarations, parametersLine]
  cases declared with
  | nil => rfl
  | cons p declared =>
      cases declarations d (p :: declared) with
      | error cause => rfl
      | ok texts => cases d.paramsKeyword <;> rfl

theorem Spectre.ends_parametersLine (d : Dialect) (declared : List Param) :
    ends (Spectre.parametersLine d declared) = ends (declared.mapM (declaredDefault d)) := by
  rw [← ends_declarations, parametersLine]
  cases declared with
  | nil => rfl
  | cons p declared =>
      cases declarations d (p :: declared) with
      | error cause => rfl
      | ok texts => rfl

theorem Module.result_opened (head nodes gap : Line) (parameters : Except Cause Line) :
    (write head >>= fun _ => write nodes >>= fun _ => check parameters >>= fun line =>
        write line >>= fun _ => write gap).result = asFault (ends parameters) := by
  rw [result_bind_of_ok rfl, result_bind_of_ok rfl]
  cases parameters with
  | error cause => rfl
  | ok line => rfl

theorem Module.result_openingScript (expands : d.family ≠ .verilog) (m : Module) (name : String)
    (t : SignalTable) :
    (m.openingScript d name t).result
      = ends (asFault (m.parameters.mapM (declaredDefault d))) := by
  rw [← asFault_ends]
  unfold openingScript
  cases family : d.family with
  | spice => exact (result_opened _ _ _ _).trans (congrArg _ (Spice.ends_parametersLine d _))
  | spectre => exact (result_opened _ _ _ _).trans (congrArg _ (Spectre.ends_parametersLine d _))
  | verilog => exact absurd family expands

/-- What a module is accepted for: its netlist name, its signals, its defaults and its instances. -/
def Module.accept (d : Dialect) (scope : Scope) (m : Module) : Except Fault Scope :=
  locate (.moduleNamed m.name) do
    let (_, inner) ← asFault (Scope.outcome (scope.define m))
    let t ← asFault (SignalTable.ofModule m)
    let _ ← asFault (m.parameters.mapM (declaredDefault d))
    m.instances.foldlM
      (fun s i => locate (.instanceNamed i.name) (asFault (i.accept d t s))) inner

theorem Module.result_script (expands : d.family ≠ .verilog) (scope : Scope) (m : Module) :
    (m.script d scope).result = m.accept d scope := by
  unfold script accept
  rw [result_within]
  apply congrArg (locate (.moduleNamed m.name))
  rw [result_bind, result_use]
  apply congrArg (asFault (Scope.outcome (scope.define m)) >>= ·)
  funext ⟨name, inner⟩
  rw [result_bind, result_check]
  apply congrArg (asFault (SignalTable.ofModule m) >>= ·)
  funext t
  rw [result_bind_of_ok rfl, layout_eq, result_bind, result_openingScript expands]
  have instances : (Instance.scriptAll d t inner m.instances >>= fun scope =>
      writeAll (m.closingLines d name) >>= fun _ => pure scope).result
        = m.instances.foldlM
          (fun s i => locate (.instanceNamed i.name) (asFault (i.accept d t s))) inner := by
    rw [result_bind, Instance.scriptAll, result_foldlM]
    simp only [Instance.result_script expands]
    exact bind_pure _
  rw [instances]
  exact bind_congr_ends (ends_ends _) _

/-- A run of steps that may fail, each with a fault met at no place in particular. -/
theorem foldlM_asFault {σ κ : Type} (step : σ → κ → Except Cause σ) (xs : List κ) (s : σ) :
    xs.foldlM (fun s x => asFault (step s x)) s = asFault (xs.foldlM step s) := by
  induction xs generalizing s with
  | nil => rfl
  | cons x xs ih =>
      rw [List.foldlM_cons, List.foldlM_cons]
      cases step s x with
      | error cause => rfl
      | ok next => exact ih next

/-- External modules are written as far as they are registered. -/
theorem ExternalModule.result_scripts (ms : List ExternalModule) (scope : Scope) :
    (ms.foldlM ExternalModule.script scope).result
      = ms.foldlM (fun s m => asFault (s.registered m)) scope := by
  rw [result_foldlM]
  simp only [result_script]
  rfl

/-- What a package is accepted for: its external modules and its modules in order. -/
def Package.accept (d : Dialect) (scope : Scope) (p : Package) : Except Fault Scope := do
  let registered ← p.externals.foldlM (fun s m => asFault (s.registered m)) scope
  p.modules.foldlM (Module.accept d) registered

theorem Package.result_script (expands : d.family ≠ .verilog) (options : Options) (scope : Scope)
    (p : Package) : (p.script d options scope).result = p.accept d scope := by
  unfold script accept
  rw [result_bind, ExternalModule.result_scripts]
  apply congrArg (p.externals.foldlM (fun s m => asFault (s.registered m)) scope >>= ·)
  funext inner
  rw [result_bind_of_ok rfl, result_bind, result_foldlM]
  simp only [Module.result_script expands]
  exact bind_pure _

end Modules

/-! ### Replies -/

/-- What a call ends with is a fault of its script, if it is not one of the sink. -/
theorem Session.fault_of_run {α : Type} {s : Session} {m : Script α} {fault : Fault}
    (failed : (s.run m).1 = .error fault) : fault.kind = .output ∨ m.result = .error fault := by
  rw [run_eq_ending] at failed
  cases played : s.play s.depth m.events with
  | mk after refused =>
      rw [played] at failed
      cases refused with
      | some other =>
          left
          obtain rfl := Except.error.inj failed
          exact kind_of_refused played
      | none =>
          right
          cases result : m.result with
          | ok a =>
              rw [result] at failed
              cases failed
          | error other =>
              rw [result] at failed
              exact failed

section Replies
variable {f : Format} {d : Dialect} {options : Options}

/-- Where the sink refuses nothing, a package is written exactly if it is accepted. -/
theorem Package.result_of_reply (dialect : Dialect.ofFormat f = .ok d)
    (expands : d.family ≠ .verilog) (p : Package) :
    ((Request.package p).reply f options {}).result = ends (p.accept d .empty) := by
  rw [Request.result_of_unlimited dialect, ← p.result_script expands options]
  rfl

theorem Package.fault_of_reply {p : Package} {sink : Sink} {fault : Fault}
    (dialect : Dialect.ofFormat f = .ok d) (expands : d.family ≠ .verilog)
    (failed : ((Request.package p).reply f options sink).result = .error fault) :
    fault.kind = .output ∨ ends (p.accept d .empty) = .error fault := by
  rw [Request.reply_of_dialect dialect] at failed
  rw [← p.result_script expands options]
  exact Session.fault_of_run failed

end Replies

end CircuitNetlist
