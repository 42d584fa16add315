import CircuitNetlist.Proofs.DeckScripts
import CircuitNetlist.Proofs.Outcomes

/-!
# Rejected cards

Most cards and analyses are one line, which is worked out with all its values before it is written.
A measurement in Spectre and the operating point in Xyce are several lines, written one after the
other, and of these nothing is left to be found wrong when the first one is written. So a card that
is rejected for a fault of its own leaves the session as it was, and so does a deck whose top module
cannot be used.
-/
namespace CircuitNetlist

namespace Script
variable {α : Type}

/-- Writes a line of the top level. -/
def writeText (text : String) : Script Unit :=
  write (.text 0 text)

/-- A line that is worked out is written by itself. -/
theorem check_text (step : Except Cause String) :
    (check (do return [← step]) >>= fun texts => writeAll (texts.map (.text 0)))
      = check step >>= writeText := by
  cases step with
  | error cause => rfl
  | ok text => rfl

/-- Where the script ends in a fault, it does so before it does anything. -/
def FailsFirst (m : Script α) : Prop :=
  ∀ fault, m.result = .error fault → m.events = []

theorem failsFirst_writeTexts (step : Except Cause (List String)) :
    (check step >>= fun texts => writeAll (texts.map (.text 0))).FailsFirst := by
  intro fault failed
  cases step with
  | error cause => rfl
  | ok texts => cases failed

end Script

open Script

/-! ### Card by card -/

namespace Control

/-- Writes a measurement. Spectre changes its language for it and changes it back. -/
def measureScript (d : Dialect) (m : Measurement) : Script Unit :=
  let text := s!".meas {m.analysis} {m.name} {m.expression}"
  match d with
  | .spectre => do
    writeText "simulator lang=spice"
    writeText text
    writeText "simulator lang=spectre"
  | .spice | .hspice | .ngspice | .xyce => writeText text
  | .verilog => fail (d.unsupported .measurements)

/-- Writes a card, each line as soon as it is known. -/
def stepwise (d : Dialect) : Control → Script Unit
  | file card => do writeText (← check (fileText d card))
  | library card => do writeText (← check (libraryText d card))
  | param p => do writeText (← check (paramText d p))
  | measure m => measureScript d m
  | save s => do writeText (← check (saveText d s))
  | literal line => writeText line

theorem measureScript_eq (d : Dialect) (m : Measurement) :
    measureScript d m
      = (check (measureTexts d m) >>= fun texts => writeAll (texts.map (.text 0))) := by
  cases d <;> rfl

/-- It makes no difference whether the lines of a card are written one by one. -/
theorem stepwise_eq_script (d : Dialect) (c : Control) : c.stepwise d = c.script d := by
  cases c with
  | file card => exact (check_text _).symm
  | library card => exact (check_text _).symm
  | param p => exact (check_text _).symm
  | measure m => exact measureScript_eq d m
  | save s => exact (check_text _).symm
  | literal line => rfl

theorem failsFirst_stepwise (d : Dialect) (c : Control) : (c.stepwise d).FailsFirst := by
  rw [stepwise_eq_script]
  exact failsFirst_writeTexts (c.texts d)

end Control

namespace Analysis

/-- Writes an operating point. In Xyce a parameter is made for it, which is then swept. -/
def operatingPointScript (d : Dialect) (a : OperatingPoint) : Script Unit :=
  match d with
  | .spice | .hspice | .ngspice => writeText ".op"
  | .xyce => do
    writeText s!".param _{a.name}_op=1"
    writeText s!".dc _{a.name}_op 1 1 1"
  | .spectre => writeText s!"{a.name} dc oppoint=rawfile"
  | .verilog => fail (d.unsupported .operatingPoint)

/-- Writes an analysis, each line as soon as it is known. -/
def stepwise (d : Dialect) (a : Analysis) : Script Unit := do
  if a.name.isEmpty then fail (.invalidAnalysis "" .nameRequired)
  if !a.controls.isEmpty then fail (d.unsupported .analysisControls)
  match a with
  | operatingPoint a => operatingPointScript d a
  | dc a => writeText (← check (dcText d a))
  | ac a => writeText (← check (acText d a))
  | transient a => writeText (← check (transientText d a))
  | noise a => writeText (← check (noiseText d a))
  | custom a => writeText a.command

theorem operatingPointScript_eq (d : Dialect) (a : OperatingPoint) :
    operatingPointScript d a
      = (check (operatingPointTexts d a) >>= fun texts => writeAll (texts.map (.text 0))) := by
  cases d <;> rfl

/-- It makes no difference whether the lines of an analysis are written one by one. -/
theorem stepwise_eq_script (d : Dialect) (a : Analysis) : a.stepwise d = a.script d := by
  unfold stepwise script texts
  by_cases unnamed : a.name.isEmpty
  · rw [if_pos unnamed, if_pos unnamed]
    rfl
  by_cases controlled : !a.controls.isEmpty
  · rw [if_neg unnamed, if_neg unnamed, if_pos controlled, if_pos controlled]
    rfl
  rw [if_neg unnamed, if_neg unnamed, if_neg controlled, if_neg controlled]
  cases a with
  | operatingPoint a => exact operatingPointScript_eq d a
  | dc a => exact (check_text _).symm
  | ac a => exact (check_text _).symm
  | transient a => exact (check_text _).symm
  | noise a => exact (check_text _).symm
  | custom a => rfl

theorem failsFirst_stepwise (d : Dialect) (a : Analysis) : (a.stepwise d).FailsFirst := by
  rw [stepwise_eq_script]
  exact failsFirst_writeTexts (a.texts d)

end Analysis

/-! ### Sessions -/

namespace Session

/-- Unless the sink refuses something, such a script leaves the session as it was where it fails. -/
theorem run_of_failsFirst {α : Type} {m : Script α} (first : m.FailsFirst) {s : Session}
    {fault : Fault} (failed : (s.run m).1 = .error fault) (own : fault.kind ≠ .output) :
    (s.run m).2 = s := by
  have result : m.result = .error fault := (fault_of_run failed).resolve_left own
  unfold run
  rw [first fault result, result]
  rfl

/-- A deck whose top module cannot be used is not begun. -/
theorem writeSimulation_of_unusable {s : Session} {input : SimulationInput} {cause : Cause}
    (unusable : input.usableTop s.dialect = .error cause) :
    s.writeSimulation input = (.error (.plain cause), s) := by
  unfold writeSimulation
  rw [SimulationInput.script_eq, unusable]
  rfl

end Session

/-- Why a deck cannot be begun: there are no decks in the dialect, the package does not have the top
module, or that has no port or several. -/
inductive SimulationInput.Unusable (d : Dialect) (s : SimulationInput) : Cause → Prop where
  | verilog (h : d = .verilog) : s.Unusable d (.unsupported .verilog .simulationInput)
  | missing (h : d ≠ .verilog) (absent : s.package.module? s.top = none) :
      s.Unusable d (.undefinedTop s.top)
  | ports (h : d ≠ .verilog) {top : Module} (found : s.package.module? s.top = some top)
      (count : top.ports.length ≠ 1) : s.Unusable d (.topPortCount s.top top.ports.length)

theorem SimulationInput.Unusable.usableTop {d : Dialect} {s : SimulationInput} {cause : Cause}
    (h : s.Unusable d cause) : s.usableTop d = .error cause := by
  have expands : d ≠ .verilog → d.family ≠ .verilog := by cases d <;> decide
  unfold SimulationInput.usableTop
  cases h with
  | verilog verilog =>
      subst verilog
      rfl
  | missing other absent =>
      rw [if_neg (expands other), topModule, absent]
      rfl
  | ports other found count =>
      rw [if_neg (expands other), topModule, found]
      exact if_neg count

/-- In any session a card or an analysis that is rejected for a fault of its own leaves everything
as it was, although the lines of some are written one by one; and a deck that cannot be begun for
its dialect or its top module is rejected for just that, and leaves everything as it was too. -/
theorem rejected_card_leaves_session (s : Session) :
    (∀ c : Control, c.stepwise s.dialect = c.script s.dialect ∧
      ∀ fault, (s.writeControl c).1 = .error fault → fault.kind ≠ .output →
        (s.writeControl c).2 = s) ∧
    (∀ a : Analysis, a.stepwise s.dialect = a.script s.dialect ∧
      ∀ fault, (s.writeAnalysis a).1 = .error fault → fault.kind ≠ .output →
        (s.writeAnalysis a).2 = s) ∧
    ∀ (input : SimulationInput) (cause : Cause), input.Unusable s.dialect cause →
      s.writeSimulation input = (.error (.plain cause), s) := by
  refine ⟨?_, ?_, ?_⟩
  · intro c
    have same := c.stepwise_eq_script s.dialect
    refine ⟨same, ?_⟩
    intro fault failed own
    exact Session.run_of_failsFirst (same ▸ c.failsFirst_stepwise s.dialect) failed own
  · intro a
    have same := a.stepwise_eq_script s.dialect
    refine ⟨same, ?_⟩
    intro fault failed own
    exact Session.run_of_failsFirst (same ▸ a.failsFirst_stepwise s.dialect) failed own
  · intro input cause unusable
    exact Session.writeSimulation_of_unusable unusable.usableTop

/-- A session of Xyce that has been left within a module. -/
def interrupted : Session :=
  { dialect := .xyce, depth := 2 }

/-- An operating point without a name. -/
def unnamedPoint : Analysis :=
  .operatingPoint { name := "" }

theorem rejected_card_leaves_session_interrupted :
    (interrupted.writeControl (.save (.mode .everything))).1
        = .error (.plain (.unsupported .xyce .saveControls)) ∧
      (interrupted.writeControl (.save (.mode .everything))).2 = interrupted ∧
      (interrupted.writeAnalysis unnamedPoint).1
        = .error (.plain (.invalidAnalysis "" .nameRequired)) ∧
      (interrupted.writeAnalysis unnamedPoint).2 = interrupted ∧
      interrupted.writeSimulation { package := {}, top := "top" }
        = (.error (.plain (.undefinedTop "top")), interrupted) := by
  obtain ⟨cards, analyses, decks⟩ := rejected_card_leaves_session interrupted
  have card : (interrupted.writeControl (.save (.mode .everything))).1
      = .error (.plain (.unsupported .xyce .saveControls)) := rfl
  have analysis : (interrupted.writeAnalysis unnamedPoint).1
      = .error (.plain (.invalidAnalysis "" .nameRequired)) := rfl
  refine ⟨card, (cards _).2 _ card (by decide), analysis, (analyses _).2 _ analysis (by decide), ?_⟩
  exact decks { package := {}, top := "top" } (.undefinedTop "top") (.missing (by decide) rfl)

end CircuitNetlist
