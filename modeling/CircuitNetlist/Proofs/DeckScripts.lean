import CircuitNetlist.Netlist.Deck
import CircuitNetlist.Proofs.CallsOfScripts

/-!
# What a deck does

Whether a deck can be written at all is settled by one step at its beginning. Behind it stand the
parts of the deck one after the other, and of these only the package makes calls of the scope.
-/
namespace CircuitNetlist

open Script

/-- The top module of a deck that the dialect can write. -/
def SimulationInput.usableTop (d : Dialect) (s : SimulationInput) : Except Cause Module :=
  if d.family = .verilog then throw (d.unsupported .simulationInput) else s.topModule

theorem SimulationInput.topModule_eq_ok {s : SimulationInput} {top : Module} :
    s.topModule = .ok top ↔ s.package.module? s.top = some top ∧ top.ports.length = 1 := by
  unfold topModule
  cases s.package.module? s.top with
  | none => simp [throw_ne_ok]
  | some m =>
      by_cases one : m.ports.length = 1
      · simp only [one, ↓reduceIte, pure_eq_ok, Option.some.injEq]
        constructor
        · rintro rfl
          exact ⟨rfl, one⟩
        · exact And.left
      · simp only [one, ↓reduceIte, throw_ne_ok, Option.some.injEq, false_iff]
        rintro ⟨rfl, one'⟩
        exact one one'

theorem SimulationInput.usableTop_eq_ok {d : Dialect} {s : SimulationInput} {top : Module} :
    s.usableTop d = .ok top ↔ d.family ≠ .verilog ∧ s.topModule = .ok top := by
  unfold usableTop
  by_cases verilog : d.family = .verilog
  · simp [verilog, throw_ne_ok]
  · simp [verilog]

theorem SimulationInput.script_eq (d : Dialect) (options : Options) (scope : Scope)
    (s : SimulationInput) : s.script d options scope = do
    let top ← check (s.usableTop d)
    writeAll (s.headerLines d)
    let scope ← s.package.script d options scope
    writeAll [topLine d top.name, .blank 0]
    s.options.forM (SimulatorOption.script d)
    s.controls.forM (Control.script d)
    s.analyses.forM (Analysis.script d)
    writeAll (endLines d)
    flush
    log .info
      s!"wrote simulation input for `{s.top}` with {s.analyses.length} analyses as {d.format.name}"
    return scope := by
  unfold SimulationInput.script usableTop
  by_cases verilog : d.family = .verilog
  · simp only [verilog, ↓reduceIte]
    rfl
  · simp only [verilog, ↓reduceIte]

/-! ### Cards -/

theorem entered_writeTexts (step : Except Cause (List String)) :
    (check step >>= fun texts => writeAll (texts.map (.text 0))).entered = [] := by
  apply entered_bind_of_silent entered_check
  intro texts
  exact entered_writeAll

theorem Control.entered_script (d : Dialect) (c : Control) : (c.script d).entered = [] :=
  entered_writeTexts (c.texts d)

theorem Analysis.entered_script (d : Dialect) (a : Analysis) : (a.script d).entered = [] :=
  entered_writeTexts (a.texts d)

theorem SimulatorOption.entered_script (d : Dialect) (o : SimulatorOption) :
    (o.script d).entered = [] := by
  apply entered_bind_of_silent entered_check
  intro text
  exact entered_write

theorem entered_forM {α : Type} {step : α → Script Unit} (silent : ∀ x, (step x).entered = [])
    (xs : List α) : (xs.forM step).entered = [] := by
  induction xs with
  | nil => rfl
  | cons x xs ih =>
      change (step x >>= fun _ => xs.forM step).entered = []
      apply entered_bind_of_silent (silent x)
      intro _
      exact ih

/-- A deck makes the calls of its package. -/
theorem SimulationInput.makes_script (d : Dialect) (options : Options) (scope : Scope)
    (s : SimulationInput) : (s.script d options scope).Makes scope s.package.calls := by
  rw [script_eq]
  apply makes_bind_of_silent entered_check
  intro top _
  apply makes_bind_of_silent entered_writeAll
  intro _ _
  rw [← List.append_nil s.package.calls]
  apply (s.package.makes_script d options scope).bind
  intro after
  -- nothing behind the package enters a scope
  apply makes_bind_of_silent entered_writeAll
  intro _ _
  apply makes_bind_of_silent (entered_forM (SimulatorOption.entered_script d) _)
  intro _ _
  apply makes_bind_of_silent (entered_forM (Control.entered_script d) _)
  intro _ _
  apply makes_bind_of_silent (entered_forM (Analysis.entered_script d) _)
  intro _ _
  apply makes_bind_of_silent entered_writeAll
  intro _ _
  apply makes_bind_of_silent entered_flush
  intro _ _
  apply makes_bind_of_silent entered_log
  intro _ _
  exact makes_pure

end CircuitNetlist
