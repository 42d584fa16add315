import CircuitNetlist.Proofs.DeckScripts
import CircuitNetlist.Proofs.Requests
import CircuitNetlist.Proofs.WrittenNetlists

/-!
# How deep lines stand

How deep a line stands is settled where it is made: nothing is indented in the Spice family, the
body of a module is one level deep in the others, and lists within the body of a module are two
levels deep in Verilog. This holds for all lines of a script, also of one that ends in a fault.
-/
namespace CircuitNetlist

open Script

/-! ### Lines of a script -/

namespace Script
variable {α β σ κ : Type} {P : Line → Prop}

/-- All lines of the script are of this kind. -/
structure Only (P : Line → Prop) (m : Script α) : Prop where
  all : ∀ line ∈ m.lines, P line

namespace Only

theorem of_silent {m : Script α} (silent : m.lines = []) : m.Only P := by
  refine ⟨?_⟩
  rw [silent]
  exact List.forall_mem_nil P

theorem bind {m : Script α} {f : α → Script β} (h : m.Only P)
    (rest : ∀ a, m.result = .ok a → (f a).Only P) : (m >>= f).Only P := by
  refine ⟨?_⟩
  cases result : m.result with
  | error fault =>
      rw [lines_bind_of_error result]
      exact h.all
  | ok a =>
      rw [lines_bind_of_ok result, List.forall_mem_append]
      exact ⟨h.all, (rest a result).all⟩

theorem check_bind {step : Except Cause α} {f : α → Script β}
    (rest : ∀ a, step = .ok a → (f a).Only P) : (check step >>= f).Only P := by
  apply (of_silent (lines_check step)).bind
  intro a ok
  exact rest a (writes_check.mp (writes_of_result ok)).2

theorem silent_bind {m : Script α} {f : α → Script β} (silent : m.lines = [])
    (rest : ∀ a, (f a).Only P) : (m >>= f).Only P :=
  (of_silent silent).bind fun a _ => rest a

theorem writeAll {ls : List Line} (h : ∀ line ∈ ls, P line) : (writeAll ls).Only P := by
  refine ⟨?_⟩
  rw [lines_writeAll]
  exact h

theorem write {line : Line} (h : P line) : (write line).Only P :=
  Only.writeAll (List.forall_mem_singleton.mpr h)

theorem within {m : Script α} (h : m.Only P) (place : Place) : (m.within place).Only P := by
  refine ⟨?_⟩
  rw [lines_within]
  exact h.all

/-- Lines that are not indented at all are nested on no more levels than allowed. -/
theorem flat {m : Script α} {levels : Nat} (h : m.Only (·.depth = 0)) :
    m.Only (·.depth ≤ levels) := by
  refine ⟨?_⟩
  intro line mem
  rw [h.all line mem]
  exact Nat.zero_le levels

theorem foldlM {step : σ → κ → Script σ} (one : ∀ s x, (step s x).Only P) (xs : List κ) (s : σ) :
    (xs.foldlM step s).Only P := by
  induction xs generalizing s with
  | nil => exact of_silent rfl
  | cons x xs ih =>
      rw [List.foldlM_cons]
      apply (one s x).bind
      intro next _
      exact ih next

theorem forM {step : κ → Script Unit} (one : ∀ x, (step x).Only P) (xs : List κ) :
    (xs.forM step).Only P := by
  induction xs with
  | nil => exact of_silent rfl
  | cons x xs ih =>
      apply (one x).bind
      intro _ _
      exact ih

end Only
end Script

/-! ### Single lines -/

namespace Line

@[simp] theorem depth_text (depth : Nat) (content : String) :
    (text depth content).depth = depth := rfl

@[simp] theorem depth_blank (depth : Nat) : (blank depth).depth = depth := rfl

@[simp] theorem depth_comment (d : Dialect) (depth : Nat) (content : String) :
    (comment d depth content).depth = depth := rfl

@[simp] theorem depth_continuation (depth : Nat) (content : String) :
    (continuation depth content).depth = depth := rfl

end Line

@[simp] theorem depth_continuationOr (d : Dialect) (depth : Nat) (otherwise content : String) :
    (continuationOr d depth otherwise content).depth = depth := by
  unfold continuationOr
  by_cases empty : content.isEmpty
  · rw [if_pos empty, Line.depth_comment]
  · rw [if_neg empty, Line.depth_continuation]

@[simp] theorem depth_paramsLine (d : Dialect) (depth : Nat) (keyword : Option String)
    (params : ParamTable) : (paramsLine d depth keyword params).depth = depth := by
  unfold paramsLine
  by_cases empty : params.isEmpty
  · rw [if_pos empty, Line.depth_comment]
  · rw [if_neg empty]
    cases keyword <;> rfl

namespace Spice

@[simp] theorem depth_nodesLine (d : Dialect) (bindings : List PortBinding) :
    (nodesLine d bindings).depth = 0 := by
  unfold nodesLine
  by_cases empty : bindings.isEmpty
  · rw [if_pos empty, Line.depth_comment]
  · rw [if_neg empty, Line.depth_continuation]

theorem depth_of_sourceClauses {d : Dialect} {source : String} {params left : ParamTable}
    {clauses : List Line} (h : sourceClauses d source params = .ok (clauses, left)) :
    ∀ line ∈ clauses, line.depth = 0 := by
  have one : ∀ keyword values, ∀ line ∈ [clause d keyword values], line.depth = 0 := by
    simp [clause]
  unfold sourceClauses at h
  by_cases constant : source = "vdc"
  · rw [if_pos constant] at h
    simp only [bind_eq_ok, pure_eq_ok, Prod.mk.injEq] at h
    obtain ⟨_, _, _, _, rfl, -⟩ := h
    simp
  · rw [if_neg constant] at h
    by_cases pulse : source = "vpulse"
    · rw [if_pos pulse] at h
      obtain ⟨fields, popped⟩ := params.popMany pulseFields
      obtain ⟨texts, -, same⟩ := bind_eq_ok.mp h
      obtain ⟨rfl, -⟩ := Prod.mk.inj (pure_eq_ok.mp same)
      exact one _ _
    · rw [if_neg pulse] at h
      by_cases sine : source = "vsin"
      · rw [if_pos sine] at h
        obtain ⟨fields, popped⟩ := params.popMany sineFields
        obtain ⟨texts, -, same⟩ := bind_eq_ok.mp h
        obtain ⟨rfl, -⟩ := Prod.mk.inj (pure_eq_ok.mp same)
        exact one _ _
      · rw [if_neg sine] at h
        exact absurd h throw_ne_ok

theorem depth_of_elementClauses {d : Dialect} {m : ExternalModule} {params left : ParamTable}
    {clauses : List Line} (h : elementClauses d m params = .ok (clauses, left)) :
    ∀ line ∈ clauses, line.depth = 0 := by
  unfold elementClauses at h
  by_cases source : m.kind = .voltageSource
  · rw [if_pos source] at h
    exact depth_of_sourceClauses h
  · rw [if_neg source] at h
    cases taken : positionalParam m.kind with
    | none => exact absurd (taken ▸ h) throw_ne_ok
    | some name =>
        simp only [taken, bind_eq_ok, pure_eq_ok, Prod.mk.injEq] at h
        obtain ⟨_, _, rfl, -⟩ := h
        simp

/-- Nothing is indented in this family. -/
theorem depth_of_instanceLines {d : Dialect} {i : Instance} {target : Resolved}
    {params : ParamTable} {bindings : List PortBinding} {ls : List Line}
    (h : instanceLines d i target params bindings = .ok ls) : ∀ line ∈ ls, line.depth = 0 := by
  unfold instanceLines at h
  cases target with
  | internal _ name =>
      simp only [pure_bind, pure_eq_ok] at h
      subst h
      simp [nameLine]
  | external _ name =>
      simp only [pure_bind, pure_eq_ok] at h
      subst h
      simp [nameLine]
  | model m name =>
      simp only [pure_bind, pure_eq_ok] at h
      subst h
      simp [nameLine]
  | primitive m =>
      simp only [pure_bind, bind_eq_ok, pure_eq_ok, Prod.exists] at h
      obtain ⟨clauses, left, found, rfl⟩ := h
      have level := depth_of_elementClauses found
      simp only [List.append_assoc, List.forall_mem_append]
      refine ⟨by simp [nameLine], level, by simp⟩

end Spice

namespace Spectre

/-- The body of a module is one level deep. -/
theorem depth_of_instanceLines {d : Dialect} {i : Instance} {target : Resolved}
    {params : ParamTable} {bindings : List PortBinding} {ls : List Line}
    (h : instanceLines d i target params bindings = .ok ls) : ∀ line ∈ ls, line.depth = 1 := by
  have all : ∀ name (left : ParamTable), ∀ line ∈ [Line.text 1 i.name, nodesLine bindings,
      .continuation 1 name, paramsLine d 1 none left, .blank 1], line.depth = 1 := by
    simp [nodesLine]
  unfold instanceLines at h
  cases target with
  | internal _ name => exact pure_eq_ok.mp h ▸ all name params
  | external _ name => exact pure_eq_ok.mp h ▸ all name params
  | model _ name => exact pure_eq_ok.mp h ▸ all name params
  | primitive m =>
      obtain ⟨⟨name, left⟩, -, same⟩ := bind_eq_ok.mp h
      exact pure_eq_ok.mp same ▸ all name left

theorem depth_of_parametersLine {d : Dialect} {declared : List Param} {line : Line}
    (h : parametersLine d declared = .ok line) : line.depth = 1 := by
  unfold parametersLine at h
  by_cases none : declared.isEmpty
  · rw [if_pos none, pure_eq_ok] at h
    exact h ▸ rfl
  · rw [if_neg none] at h
    obtain ⟨texts, -, same⟩ := bind_eq_ok.mp h
    exact pure_eq_ok.mp same ▸ rfl

end Spectre

theorem Spice.depth_of_parametersLine {d : Dialect} {declared : List Param} {line : Line}
    (h : parametersLine d declared = .ok line) : line.depth = 0 := by
  unfold parametersLine at h
  by_cases none : declared.isEmpty
  · rw [if_pos none, pure_eq_ok] at h
    exact h ▸ rfl
  · rw [if_neg none] at h
    obtain ⟨texts, -, same⟩ := bind_eq_ok.mp h
    cases keyword : d.paramsKeyword with
    | some word =>
        rw [keyword] at same
        exact pure_eq_ok.mp same ▸ rfl
    | none =>
        rw [keyword] at same
        exact pure_eq_ok.mp same ▸ rfl

namespace Verilog

/-- A list stands one level deeper than its parentheses. -/
theorem depth_of_list (depth : Nat) (opening closing : String) (entries : List String) :
    ∀ line ∈ [Line.text depth opening] ++ entries.map (Line.text (depth + 1))
        ++ [Line.text depth closing],
      line.depth ≤ depth + 1 := by
  simp only [List.forall_mem_append, List.forall_mem_map, List.forall_mem_singleton]
  simp

@[simp] theorem depth_overridesLine (d : Dialect) (params : ParamTable) :
    (overridesLine d params).depth = 1 := by
  unfold overridesLine
  by_cases none : params.isEmpty
  · rw [if_pos none, Line.depth_comment]
  · rw [if_neg none, Line.depth_text]

/-- The connections of an instance are nested within it. -/
theorem depth_of_instanceLines {d : Dialect} {i : Instance} {target : Resolved}
    {params : ParamTable} {bindings : List PortBinding} {ls : List Line}
    (h : instanceLines d i target params bindings = .ok ls) : ∀ line ∈ ls, line.depth ≤ 2 := by
  have connections : ∀ line ∈ bindingLines bindings, line.depth ≤ 2 := by
    unfold bindingLines
    by_cases none : bindings.isEmpty
    · simp [none]
    · rw [if_neg none]
      exact depth_of_list 1 _ _ _
  have all : ∀ name, ∀ line ∈ [Line.text 1 name, overridesLine d params, .text 1 i.name]
      ++ bindingLines bindings ++ [.blank 1], line.depth ≤ 2 := by
    intro name
    simp only [List.forall_mem_append]
    refine ⟨⟨?_, connections⟩, by simp⟩
    simp
  unfold instanceLines at h
  cases target with
  | internal _ name => exact pure_eq_ok.mp h ▸ all name
  | external _ name => exact pure_eq_ok.mp h ▸ all name
  | model _ name => cases h
  | primitive m => cases h

theorem depth_of_parameterLines {d : Dialect} {declared : List Param} {ls : List Line}
    (h : parameterLines d declared = .ok ls) : ∀ line ∈ ls, line.depth ≤ 1 := by
  unfold parameterLines at h
  by_cases none : declared.isEmpty
  · rw [if_pos none, pure_eq_ok] at h
    simp [← h]
  · rw [if_neg none] at h
    obtain ⟨entries, -, same⟩ := bind_eq_ok.mp h
    exact pure_eq_ok.mp same ▸ depth_of_list 0 _ _ _

theorem depth_of_portLines {ports : List (Port × Signal)} {ls : List Line}
    (h : portLines ports = .ok ls) : ∀ line ∈ ls, line.depth ≤ 1 := by
  unfold portLines at h
  by_cases none : ports.isEmpty
  · rw [if_pos none, pure_eq_ok] at h
    simp [← h]
  · rw [if_neg none] at h
    obtain ⟨entries, -, same⟩ := bind_eq_ok.mp h
    exact pure_eq_ok.mp same ▸ depth_of_list 0 _ _ _

theorem depth_of_signalLines {d : Dialect} {signals : List Signal} :
    ∀ line ∈ signalLines d signals, line.depth = 1 := by
  unfold signalLines
  by_cases none : signals.isEmpty
  · simp [none]
  · simp [none]

end Verilog

/-! ### Whole scripts -/

/-- How many levels a family nests its lines. -/
def Family.levels : Family → Nat
  | .spice => 0
  | .spectre => 1
  | .verilog => 2

/-- How deep the body of a module stands. -/
def Family.body : Family → Nat
  | .spice => 0
  | .spectre | .verilog => 1

section Scripts
variable (d : Dialect)

theorem depth_of_instanceLines {i : Instance} {target : Resolved} {params : ParamTable}
    {bindings : List PortBinding} {ls : List Line}
    (h : instanceLines d i target params bindings = .ok ls) :
    ∀ line ∈ ls, line.depth ≤ d.family.levels := by
  unfold instanceLines at h
  cases family : d.family with
  | spice =>
      rw [family] at h
      intro line mem
      exact Nat.le_of_eq (Spice.depth_of_instanceLines h line mem)
  | spectre =>
      rw [family] at h
      intro line mem
      exact Nat.le_of_eq (Spectre.depth_of_instanceLines h line mem)
  | verilog =>
      rw [family] at h
      exact Verilog.depth_of_instanceLines h

theorem Instance.only_script (t : SignalTable) (scope : Scope) (i : Instance) :
    (i.script d t scope).Only (·.depth ≤ d.family.levels) := by
  apply Only.within
  apply Only.silent_bind (lines_use _)
  rintro ⟨target, next⟩
  apply Only.check_bind
  intro params _
  apply Only.silent_bind (lines_warnUndeclared _)
  intro _
  apply Only.check_bind
  intro bindings _
  apply Only.silent_bind rfl
  intro _
  apply Only.check_bind
  intro ls laid
  apply (Only.writeAll (depth_of_instanceLines d laid)).bind
  intro _ _
  exact Only.of_silent rfl

theorem Module.only_openingScript (m : Module) (name : String) (t : SignalTable) :
    (m.openingScript d name t).Only (·.depth ≤ d.family.levels) := by
  unfold openingScript
  cases family : d.family with
  | spice =>
      apply (Only.write (by simp)).bind
      intro _ _
      apply (Only.write (by simp)).bind
      intro _ _
      apply Only.check_bind
      intro line laid
      apply (Only.write (Nat.le_of_eq (Spice.depth_of_parametersLine laid))).bind
      intro _ _
      exact Only.write (by simp)
  | spectre =>
      apply (Only.write (by simp)).bind
      intro _ _
      apply (Only.write (by simp [Family.levels])).bind
      intro _ _
      apply Only.check_bind
      intro line laid
      apply (Only.write (Nat.le_of_eq (Spectre.depth_of_parametersLine laid))).bind
      intro _ _
      exact Only.write (by simp [Family.levels])
  | verilog =>
      have deeper : ∀ line : Line, line.depth ≤ 1 → line.depth ≤ 2 := by
        intro line shallow
        exact Nat.le_succ_of_le shallow
      apply (Only.write (by simp)).bind
      intro _ _
      apply Only.check_bind
      intro parameters laid
      apply (Only.writeAll fun line mem =>
        deeper line (Verilog.depth_of_parameterLines laid line mem)).bind
      intro _ _
      apply Only.check_bind
      intro ports laid
      apply (Only.writeAll fun line mem =>
        deeper line (Verilog.depth_of_portLines laid line mem)).bind
      intro _ _
      apply (Only.write (by simp)).bind
      intro _ _
      apply (Only.writeAll fun line mem =>
        deeper line (Nat.le_of_eq (Verilog.depth_of_signalLines line mem))).bind
      intro _ _
      apply (Only.write (by simp)).bind
      intro _ _
      exact Only.write (by simp [Verilog.instancesLine])

theorem Module.depth_of_closingLines (m : Module) (name : String) :
    ∀ line ∈ m.closingLines d name, line.depth ≤ d.family.levels := by
  unfold closingLines
  cases family : d.family with
  | spice =>
      simp only [List.forall_mem_append, List.forall_mem_map]
      simp
  | spectre =>
      simp only [List.forall_mem_append, List.forall_mem_map]
      simp [Family.levels]
  | verilog =>
      simp only [List.forall_mem_append, List.forall_mem_map]
      simp [Family.levels]

theorem Module.only_layout (m : Module) (name : String) (t : SignalTable) (scope : Scope) :
    (m.layout d name t scope).Only (·.depth ≤ d.family.levels) := by
  rw [layout_eq]
  apply (m.only_openingScript d name t).bind
  intro _ _
  have instances : (Instance.scriptAll d t scope m.instances).Only
      (·.depth ≤ d.family.levels) := by
    apply Only.foldlM
    intro s i
    exact i.only_script d t s
  apply instances.bind
  intro _ _
  apply (Only.writeAll (m.depth_of_closingLines d name)).bind
  intro _ _
  exact Only.of_silent rfl

theorem Module.only_script (scope : Scope) (m : Module) :
    (m.script d scope).Only (·.depth ≤ d.family.levels) := by
  apply Only.within
  apply Only.silent_bind (lines_use _)
  rintro ⟨name, inner⟩
  apply Only.check_bind
  intro t _
  apply Only.silent_bind rfl
  intro _
  exact m.only_layout d name t inner

theorem Package.depth_of_headerLines (options : Options) (p : Package) :
    ∀ line ∈ p.headerLines d options, line.depth = 0 := by
  simp only [headerLines, List.forall_mem_append, List.forall_mem_map]
  simp

theorem Package.only_script (options : Options) (scope : Scope) (p : Package) :
    (p.script d options scope).Only (·.depth ≤ d.family.levels) := by
  apply Only.silent_bind (lines_registration _ _)
  intro registered
  have header : ∀ line ∈ p.headerLines d options, line.depth ≤ d.family.levels := by
    intro line mem
    simp [p.depth_of_headerLines d options line mem]
  apply (Only.writeAll header).bind
  intro _ _
  apply (Only.foldlM (Module.only_script d) p.modules registered).bind
  intro _ _
  exact Only.of_silent rfl

/-- Cards and analyses are not indented. -/
theorem only_writeTexts (step : Except Cause (List String)) :
    (check step >>= fun texts => writeAll (texts.map (.text 0))).Only (·.depth = 0) := by
  apply Only.check_bind
  intro texts _
  apply Only.writeAll
  simp

theorem SimulatorOption.only_script (o : SimulatorOption) :
    (o.script d).Only (·.depth = 0) := by
  apply Only.check_bind
  intro text _
  exact Only.write rfl

/-- What a deck writes behind its package. -/
def SimulationInput.restScript (s : SimulationInput) (top : Module) : Script Unit := do
  writeAll [topLine d top.name, .blank 0]
  s.options.forM (SimulatorOption.script d)
  s.controls.forM (Control.script d)
  s.analyses.forM (Analysis.script d)
  writeAll (endLines d)
  flush
  log .info
    s!"wrote simulation input for `{s.top}` with {s.analyses.length} analyses as {d.format.name}"

theorem SimulationInput.only_restScript (s : SimulationInput) (top : Module) :
    (s.restScript d top).Only (·.depth = 0) := by
  have first : ∀ line ∈ [topLine d top.name, .blank 0], line.depth = 0 := by
    unfold topLine
    cases d.topComment <;> simp
  have last : ∀ line ∈ endLines d, line.depth = 0 := by
    unfold endLines
    by_cases spice : d.family = .spice
    · simp [spice]
    · simp [spice]
  apply (Only.writeAll first).bind
  intro _ _
  apply (Only.forM (SimulatorOption.only_script d) s.options).bind
  intro _ _
  apply (Only.forM (fun c => only_writeTexts (c.texts d)) s.controls).bind
  intro _ _
  apply (Only.forM (fun a => only_writeTexts (a.texts d)) s.analyses).bind
  intro _ _
  apply (Only.writeAll last).bind
  intro _ _
  exact Only.of_silent rfl

theorem SimulationInput.script_eq_rest (options : Options) (scope : Scope) (s : SimulationInput) :
    s.script d options scope = (do
      let top ← check (s.usableTop d)
      writeAll (s.headerLines d)
      let scope ← s.package.script d options scope
      s.restScript d top
      return scope) := by
  simp only [script_eq, restScript, bind_assoc]

theorem SimulationInput.depth_of_headerLines (s : SimulationInput) :
    ∀ line ∈ s.headerLines d, line.depth = 0 := by
  unfold headerLines
  by_cases spectre : d = .spectre
  · simp [spectre]
  · simp [spectre]

theorem SimulationInput.only_script (options : Options) (scope : Scope) (s : SimulationInput) :
    (s.script d options scope).Only (·.depth ≤ d.family.levels) := by
  rw [script_eq_rest]
  apply Only.check_bind
  intro top _
  apply (Only.writeAll (P := (·.depth = 0)) (s.depth_of_headerLines d)).flat.bind
  intro _ _
  apply (s.package.only_script d options scope).bind
  intro _ _
  apply (s.only_restScript d top).flat.bind
  intro _ _
  exact Only.of_silent rfl

/-- Whatever is asked, no line stands deeper than the family nests its lines. -/
theorem Request.only_script (options : Options) (scope : Scope) (r : Request) :
    (r.script d options scope).Only (·.depth ≤ d.family.levels) := by
  cases r with
  | package p => exact ⟨(p.only_script d options scope).all⟩
  | definition m => exact ⟨(m.only_script d scope).all⟩
  | deck input => exact ⟨(input.only_script d options scope).all⟩
  | card c => exact (only_writeTexts (c.texts d)).flat
  | analysis a => exact (only_writeTexts (a.texts d)).flat

end Scripts

end CircuitNetlist
