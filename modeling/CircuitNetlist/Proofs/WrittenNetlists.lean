import CircuitNetlist.Proofs.Scopes
import CircuitNetlist.Proofs.ScriptRuns

/-!
# What a written netlist consists of

Every writer is taken apart once: what has to hold for it to end well, and which lines it has
written then. A package is its header and its modules in order, a module its opening lines, its
instances in order and its closing lines, and an instance its own few lines.
-/
namespace CircuitNetlist

open Script

/-! ### Instances -/

/-- An instance that is written has a target, parameters, bindings and lines. -/
structure Instance.Written (d : Dialect) (t : SignalTable) (scope : Scope) (i : Instance)
    (target : Resolved) (merged : ResolvedParams) (bindings : List PortBinding)
    (ls : List Line) (after : Scope) : Prop where
  resolved : scope.resolve i.reference = (.ok target, after)
  params : resolveParams d i.parameters target.parameters = .ok merged
  bound : bindPorts d t target i.connections = .ok bindings
  lines : instanceLines d i target merged.table bindings = .ok ls

theorem writes_warnUndeclared_bind {β : Type} {names : List String} {f : Unit → Script β}
    {ls : List Line} {b : β} :
    (warnUndeclared names >>= f).Writes ls b ↔ (f ()).Writes ls b := by
  induction names with
  | nil =>
      have none : warnUndeclared [] = pure () := rfl
      rw [none, pure_bind]
  | cons name names ih =>
      have one : warnUndeclared (name :: names)
          = log .warn s!"passing through undeclared parameter `{name}`"
            >>= fun _ => warnUndeclared names := rfl
      rw [one, bind_assoc, writes_log_bind]
      exact ih

theorem Instance.writes_script {d : Dialect} {t : SignalTable} {scope after : Scope}
    {i : Instance} {ls : List Line} :
    (i.script d t scope).Writes ls after ↔
      ∃ target merged bindings, i.Written d t scope target merged bindings ls after := by
  unfold Instance.script
  simp only [writes_within, writes_check_bind, writes_use_bind, writes_warnUndeclared_bind,
    writes_log_bind, writes_writeAll_bind, writes_pure]
  constructor
  · intro h
    obtain ⟨target, scope', resolved, merged, params, bindings, bound, lines, laid, rest,
      ⟨rfl, rfl⟩, rfl⟩ := h
    refine ⟨target, merged, bindings, resolved, params, bound, ?_⟩
    rw [List.append_nil]
    exact laid
  · intro h
    obtain ⟨target, merged, bindings, w⟩ := h
    exact ⟨target, after, w.resolved, merged, w.params, bindings, w.bound, ls, w.lines, [],
      ⟨rfl, rfl⟩, (List.append_nil ls).symm⟩

/-! ### Modules -/

namespace Module

/-- The lines of a module in front of its instances. -/
def openingLines (d : Dialect) (m : Module) (name : String) (t : SignalTable) :
    Except Cause (List Line) :=
  match d.family with
  | .spice => do
    let parameters ← Spice.parametersLine d m.parameters
    return [.text 0 (".SUBCKT " ++ name), continuationOr d 0 "No ports" (t.portList d),
      parameters, .blank 0]
  | .spectre => do
    let parameters ← Spectre.parametersLine d m.parameters
    return [.text 0 ("subckt " ++ name), continuationOr d 1 "No ports" (t.portList d),
      parameters, .blank 1]
  | .verilog => do
    let parameters ← Verilog.parameterLines d m.parameters
    let ports ← Verilog.portLines t.ports
    return [.text 0 ("module " ++ name)] ++ parameters ++ ports ++ [.blank 0]
      ++ Verilog.signalLines d t.internal ++ [.blank 1, Verilog.instancesLine d m.instances]

/-- The lines of a module behind its instances. -/
def closingLines (d : Dialect) (m : Module) (name : String) : List Line :=
  match d.family with
  | .spice => m.literals.map (.text 0) ++ [.text 0 ".ENDS", .blank 0]
  | .spectre => m.literals.map (.text 1) ++ [.text 0 ("ends " ++ name), .blank 0]
  | .verilog => m.literals.map (.text 1) ++ [.text 0 ("endmodule // " ++ name), .blank 0]

/-- What a module writes in front of its instances. -/
def openingScript (d : Dialect) (m : Module) (name : String) (t : SignalTable) : Script Unit :=
  match d.family with
  | .spice => do
    write (.text 0 (".SUBCKT " ++ name))
    write (continuationOr d 0 "No ports" (t.portList d))
    write (← check (Spice.parametersLine d m.parameters))
    write (.blank 0)
  | .spectre => do
    write (.text 0 ("subckt " ++ name))
    write (continuationOr d 1 "No ports" (t.portList d))
    write (← check (Spectre.parametersLine d m.parameters))
    write (.blank 1)
  | .verilog => do
    write (.text 0 ("module " ++ name))
    writeAll (← check (Verilog.parameterLines d m.parameters))
    writeAll (← check (Verilog.portLines t.ports))
    write (.blank 0)
    writeAll (Verilog.signalLines d t.internal)
    write (.blank 1)
    write (Verilog.instancesLine d m.instances)

/-- All families lay out a module as its opening, its instances and its closing lines. -/
theorem layout_eq (d : Dialect) (m : Module) (name : String) (t : SignalTable) (scope : Scope) :
    m.layout d name t scope = (do
      m.openingScript d name t
      let scope ← Instance.scriptAll d t scope m.instances
      writeAll (m.closingLines d name)
      return scope) := by
  unfold layout openingScript closingLines
  cases d.family with
  | spice => simp only [Spice.moduleScript, bind_assoc, writeAll_append]
  | spectre => simp only [Spectre.moduleScript, bind_assoc, writeAll_append]
  | verilog => simp only [Verilog.moduleScript, bind_assoc, writeAll_append]

/-- Two families open a module alike: its name, its nodes, its parameters and a blank line. -/
theorem writes_opened {head nodes gap : Line} {parameters : Except Cause Line} {u : Unit}
    {ls : List Line} :
    (write head >>= fun _ => write nodes >>= fun _ => check parameters >>= fun line =>
        write line >>= fun _ => write gap).Writes ls u ↔
      ∃ line, parameters = .ok line ∧ [head, nodes, line, gap] = ls := by
  simp only [writes_write_bind, writes_check_bind, writes_write]
  constructor
  · intro h
    obtain ⟨_, ⟨_, ⟨line, ok, _, rfl, rfl⟩, rfl⟩, rfl⟩ := h
    exact ⟨line, ok, rfl⟩
  · intro h
    obtain ⟨line, ok, rfl⟩ := h
    exact ⟨_, ⟨_, ⟨line, ok, _, rfl, rfl⟩, rfl⟩, rfl⟩

theorem writes_opening {d : Dialect} {m : Module} {name : String} {t : SignalTable} {u : Unit}
    {ls : List Line} :
    (m.openingScript d name t).Writes ls u ↔ m.openingLines d name t = .ok ls := by
  unfold openingScript openingLines
  cases d.family with
  | spice => simp only [writes_opened, bind_eq_ok, pure_eq_ok]
  | spectre => simp only [writes_opened, bind_eq_ok, pure_eq_ok]
  | verilog =>
      simp only [writes_write_bind, writes_check_bind, writes_writeAll_bind, writes_write,
        bind_eq_ok, pure_eq_ok]
      constructor
      · intro h
        obtain ⟨_, ⟨parameters, ok, _, ⟨ports, ok', _, ⟨_, ⟨_, ⟨_, rfl, rfl⟩, rfl⟩, rfl⟩, rfl⟩,
          rfl⟩, rfl⟩ := h
        exact ⟨parameters, ok, ports, ok', by simp⟩
      · intro h
        obtain ⟨parameters, ok, ports, ok', rfl⟩ := h
        exact ⟨_, ⟨parameters, ok, _, ⟨ports, ok', _, ⟨_, ⟨_, ⟨_, rfl, rfl⟩, rfl⟩, rfl⟩, rfl⟩,
          rfl⟩, by simp⟩

theorem writes_layout {d : Dialect} {m : Module} {name : String} {t : SignalTable}
    {scope after : Scope} {ls : List Line} :
    (m.layout d name t scope).Writes ls after ↔
      ∃ opening body, m.openingLines d name t = .ok opening ∧
        (Instance.scriptAll d t scope m.instances).Writes body after ∧
        ls = opening ++ body ++ m.closingLines d name := by
  rw [layout_eq, writes_bind]
  simp only [writes_opening, writes_bind (m := Instance.scriptAll d t scope m.instances),
    writes_writeAll_bind, writes_pure]
  constructor
  · intro h
    obtain ⟨_, opening, _, opened, ⟨_, body, _, written, ⟨rest, ⟨rfl, rfl⟩, rfl⟩, rfl⟩, rfl⟩ := h
    exact ⟨opening, body, opened, written, by simp⟩
  · intro h
    obtain ⟨opening, body, opened, written, rfl⟩ := h
    exact ⟨(), opening, _, opened, ⟨after, body, _, written, ⟨[], ⟨rfl, rfl⟩, rfl⟩, rfl⟩, by simp⟩

/-- A module that is written has a netlist name, a signal table and lines. -/
structure Written (d : Dialect) (scope : Scope) (m : Module) (inner : Scope) (name : String)
    (t : SignalTable) (opening body : List Line) (after : Scope) : Prop where
  defined : scope.define m = (.ok name, inner)
  table : SignalTable.ofModule m = .ok t
  opened : m.openingLines d name t = .ok opening
  instances : (Instance.scriptAll d t inner m.instances).Writes body after

theorem writes_script {d : Dialect} {scope after : Scope} {m : Module} {ls : List Line} :
    (m.script d scope).Writes ls after ↔
      ∃ inner name t opening body, m.Written d scope inner name t opening body after ∧
        ls = opening ++ body ++ m.closingLines d name := by
  unfold script
  simp only [writes_within, writes_check_bind, writes_use_bind, writes_log_bind, writes_layout]
  constructor
  · intro h
    obtain ⟨name, inner, ok, t, table, opening, body, opened, instances, rfl⟩ := h
    exact ⟨inner, name, t, opening, body, ⟨ok, table, opened, instances⟩, rfl⟩
  · intro h
    obtain ⟨inner, name, t, opening, body, w, rfl⟩ := h
    exact ⟨name, inner, w.defined, t, w.table, opening, body, w.opened, w.instances, rfl⟩

end Module

/-! ### Packages -/

theorem ExternalModule.writes_script {scope after : Scope} {m : ExternalModule} {ls : List Line} :
    (m.script scope).Writes ls after ↔ ls = [] ∧ scope.registered m = .ok after := by
  rw [Scope.registered_eq_ok]
  unfold ExternalModule.script Scope.register
  simp only [writes_check_bind, writes_log_bind, writes_use_bind, writes_pure]
  cases scope.checkUnregistered m.name with
  | error cause => simp
  | ok u =>
      constructor
      · intro h
        obtain ⟨_, -, _, _, added, rfl, rfl⟩ := h
        exact ⟨rfl, added⟩
      · intro h
        obtain ⟨rfl, added⟩ := h
        exact ⟨u, rfl, (), after, added, rfl, rfl⟩

theorem ExternalModule.writes_scripts {scope after : Scope} {ms : List ExternalModule}
    {ls : List Line} :
    (ms.foldlM ExternalModule.script scope).Writes ls after ↔
      ls = [] ∧ ms.foldlM Scope.registered scope = .ok after := by
  induction ms generalizing scope ls with
  | nil => simp [pure_eq_ok]
  | cons m ms ih =>
      rw [writes_foldlM_cons, List.foldlM_cons, bind_eq_ok]
      simp only [ExternalModule.writes_script, ih]
      constructor
      · intro h
        obtain ⟨between, _, _, ⟨rfl, first⟩, ⟨rfl, rest⟩, rfl⟩ := h
        exact ⟨rfl, between, first, rest⟩
      · intro h
        obtain ⟨rfl, between, first, rest⟩ := h
        exact ⟨between, [], [], ⟨rfl, first⟩, ⟨rfl, rest⟩, rfl⟩

/-- Nothing is written for the external modules, also where they are refused. -/
theorem Package.lines_registration (ms : List ExternalModule) (scope : Scope) :
    (ms.foldlM ExternalModule.script scope).lines = [] := by
  apply lines_foldlM_of_silent
  intro s m
  unfold ExternalModule.script
  apply lines_bind_of_silent (lines_check _)
  intro _
  apply lines_bind_of_silent rfl
  intro _
  apply lines_bind_of_silent (lines_use _)
  intro _
  rfl

/-- The header and the modules follow them. -/
theorem Package.writes_script {d : Dialect} {options : Options} {scope after : Scope}
    {p : Package} {ls : List Line} :
    (p.script d options scope).Writes ls after ↔
      ∃ registered body, p.externals.foldlM Scope.registered scope = .ok registered ∧
        (p.modules.foldlM (Module.script d) registered).Writes body after ∧
        ls = p.headerLines d options ++ body := by
  unfold Package.script
  rw [writes_bind]
  simp only [ExternalModule.writes_scripts, writes_writeAll_bind]
  constructor
  · intro h
    obtain ⟨registered, _, _, ⟨rfl, ok⟩, ⟨rest, written, rfl⟩, rfl⟩ := h
    rw [writes_bind] at written
    obtain ⟨after', body, _, modules, last, rfl⟩ := written
    simp only [writes_flush_bind, writes_log_bind, writes_pure] at last
    obtain ⟨rfl, rfl⟩ := last
    exact ⟨registered, body, ok, modules, by simp⟩
  · intro h
    obtain ⟨registered, body, ok, modules, rfl⟩ := h
    refine ⟨registered, [], _, ⟨rfl, ok⟩, ⟨body, ?_, rfl⟩, rfl⟩
    rw [writes_bind]
    refine ⟨after, body, [], modules, ?_, (List.append_nil body).symm⟩
    simp only [writes_flush_bind, writes_log_bind, writes_pure, and_self]

/-! ### The parts of a run -/

namespace Instance
variable {d : Dialect} {t : SignalTable} {scope after : Scope} {is : List Instance}
  {body : List Line}

theorem Written.keeps {i : Instance} {target : Resolved} {merged : ResolvedParams}
    {bindings : List PortBinding} {ls : List Line}
    (w : i.Written d t scope target merged bindings ls after) : scope.Keeps after :=
  Scope.keeps_of_resolve w.resolved

theorem keeps_of_writes (run : (scriptAll d t scope is).Writes body after) :
    scope.Keeps after := by
  refine Writes.invariant scope.Keeps ?_ (Scope.Keeps.refl scope) run
  intro before i next ls kept written
  obtain ⟨target, merged, bindings, w⟩ := writes_script.mp written
  exact kept.trans w.keeps

/-- Every instance is written with its lines one after the other, in a scope that knows the same
modules. -/
theorem written_of_mem (run : (scriptAll d t scope is).Writes body after) {i : Instance}
    (mem : i ∈ is) :
    ∃ before next target merged bindings ls, scope.Keeps before ∧
      i.Written d t before target merged bindings ls next ∧ ls <:+: body := by
  obtain ⟨k, hk, rfl⟩ := List.getElem_of_mem mem
  obtain ⟨before, next, front, ls, rest, first, here, -, rfl⟩ := writes_foldlM_mem run hk
  obtain ⟨target, merged, bindings, w⟩ := writes_script.mp here
  exact ⟨before, next, target, merged, bindings, ls, keeps_of_writes first, w, front, rest, rfl⟩

end Instance

namespace Module
variable {d : Dialect} {scope after : Scope} {ms : List Module} {body : List Line}

theorem Written.modules_inner {m : Module} {inner : Scope} {name : String} {t : SignalTable}
    {opening inside : List Line} (w : m.Written d scope inner name t opening inside after) :
    inner.modules = m :: scope.modules := by
  obtain ⟨-, -, table, -, rfl⟩ := Scope.define_eq_ok.mp w.defined
  rfl

theorem modules_of_script {m : Module} {ls : List Line} (h : (m.script d scope).Writes ls after) :
    after.modules = m :: scope.modules := by
  obtain ⟨inner, name, t, opening, inside, w, -⟩ := writes_script.mp h
  rw [(Instance.keeps_of_writes w.instances).modules, w.modules_inner]

theorem consistent_of_script {m : Module} {ls : List Line} (start : scope.Consistent)
    (h : (m.script d scope).Writes ls after) : after.Consistent := by
  obtain ⟨inner, name, t, opening, inside, w, -⟩ := writes_script.mp h
  exact (start.define w.defined).of_keeps (Instance.keeps_of_writes w.instances)

/-- After a run the scope knows the modules of the run, the last one first. -/
theorem modules_of_writes (run : (ms.foldlM (script d) scope).Writes body after) :
    after.modules = ms.reverse ++ scope.modules := by
  induction ms generalizing scope body with
  | nil =>
      rw [List.foldlM_nil, writes_pure] at run
      rw [← run.2]
      rfl
  | cons m ms ih =>
      obtain ⟨between, first, rest, here, later, -⟩ := writes_foldlM_cons.mp run
      rw [ih later, modules_of_script here]
      simp

theorem consistent_of_writes (start : scope.Consistent)
    (run : (ms.foldlM (script d) scope).Writes body after) : after.Consistent := by
  refine Writes.invariant Scope.Consistent ?_ start run
  intro before m next ls consistent written
  exact consistent_of_script consistent written

/-- Every module is written as a whole, in a scope that knows the modules before it. -/
theorem written_at (run : (ms.foldlM (script d) scope).Writes body after) {k : Nat}
    (hk : k < ms.length) :
    ∃ before next inner name t opening inside,
      before.modules = (ms.take k).reverse ++ scope.modules ∧
      ms[k].Written d before inner name t opening inside next ∧
      opening ++ inside ++ ms[k].closingLines d name <:+: body := by
  obtain ⟨before, next, front, ls, rest, first, here, -, rfl⟩ := writes_foldlM_mem run hk
  obtain ⟨inner, name, t, opening, inside, w, rfl⟩ := writes_script.mp here
  exact ⟨before, next, inner, name, t, opening, inside, modules_of_writes first, w, front, rest,
    rfl⟩

end Module

namespace Package
variable {d : Dialect} {options : Options} {p : Package} {ls : List Line} {scope : Scope}

/-- Every module of a written package is written as a whole, and knows the modules before it. -/
theorem written_at (run : (p.script d options .empty).Writes ls scope) {k : Nat} {m : Module}
    (place : p.modules[k]? = some m) :
    ∃ before next inner name t opening inside,
      before.modules = (p.modules.take k).reverse ∧
      m.Written d before inner name t opening inside next ∧
      opening ++ inside ++ m.closingLines d name <:+: ls := by
  obtain ⟨registered, body, externals, modules, rfl⟩ := writes_script.mp run
  obtain ⟨hk, rfl⟩ := List.getElem?_eq_some_iff.mp place
  obtain ⟨before, next, inner, name, t, opening, inside, known, w, part⟩ :=
    Module.written_at modules hk
  have none : registered.modules = [] := (Scope.keeps_of_registered externals).modules
  rw [none, List.append_nil] at known
  refine ⟨before, next, inner, name, t, opening, inside, known, w, ?_⟩
  exact part.trans (List.suffix_append _ _).isInfix

/-- An instance of a module of the package is written with that module as its target, which
stands at the place of the instance's own module or before it. -/
theorem written_reference (run : (p.script d options .empty).Writes ls scope) {k : Nat}
    {m : Module} (place : p.modules[k]? = some m) {i : Instance} (mem : i ∈ m.instances)
    {name : String} (refers : i.reference = .internal name) :
    ∃ j n, j ≤ k ∧ p.modules[j]? = some n ∧ n.name = name ∧
      ∃ t before merged bindings lines next, SignalTable.ofModule m = .ok t ∧
        i.Written d t before (.internal n (sanitize name)) merged bindings lines next ∧
        lines <:+: ls := by
  obtain ⟨before, next, inner, netlistName, t, opening, inside, known, w, part⟩ :=
    written_at run place
  obtain ⟨here, there, target, merged, bindings, lines, same, v, within⟩ :=
    Instance.written_of_mem w.instances mem
  have resolved := v.resolved
  rw [refers] at resolved
  obtain ⟨n, found, rfl, -⟩ := Scope.resolve_internal_eq_ok.mp resolved
  have named : n.name = name := by simpa using List.find?_some found
  have defined : n ∈ here.modules := List.mem_of_find?_eq_some found
  have shown : lines <:+: ls := by
    refine within.trans (List.IsInfix.trans ?_ part)
    exact ⟨opening, m.closingLines d netlistName, rfl⟩
  have rest : ∃ t before merged bindings lines next, SignalTable.ofModule m = .ok t ∧
      i.Written d t before (.internal n (sanitize name)) merged bindings lines next ∧
      lines <:+: ls :=
    ⟨t, here, merged, bindings, lines, there, w.table, named ▸ v, shown⟩
  rw [same.modules, w.modules_inner, known] at defined
  rcases List.mem_cons.mp defined with rfl | earlier
  · exact ⟨k, n, Nat.le_refl k, place, named, rest⟩
  · rw [List.mem_reverse] at earlier
    obtain ⟨j, hj, rfl⟩ := List.getElem_of_mem earlier
    rw [List.length_take] at hj
    refine ⟨j, _, by omega, ?_, named, rest⟩
    rw [List.getElem_take]
    exact List.getElem?_eq_getElem (by omega)

end Package

end CircuitNetlist
