import CircuitNetlist.Proofs.AcceptedModules
import CircuitNetlist.Proofs.PortBindings
import CircuitNetlist.Proofs.ResolvedReferences
import CircuitNetlist.Proofs.TargetFaults
import CircuitNetlist.Proofs.WrittenNetlists

/-!
# Modules written in Verilog

A written module declares each of its signals once: the signals of its ports in the header, in the
order of the ports, and all others as wires in the body. Each instance binds every port of what it
refers to by name, and what a port is bound to is made of declared signals and stays within their
ranges.
-/
namespace CircuitNetlist

open Script

namespace Verilog

/-! ### Lists -/

/-- The entries of a list; every one but the last has a comma behind it. -/
def withCommas (entries : List String) : List String :=
  entries.dropLast.map (· ++ ",") ++ entries.getLast?.toList

theorem withCommas_cons {entries : List String} (some : entries ≠ []) (entry : String) :
    withCommas (entry :: entries) = (entry ++ ",") :: withCommas entries := by
  simp [withCommas, List.dropLast_cons_of_ne_nil some, List.getLast?_cons_of_ne_nil some]

theorem withCommas_ne_nil {entries : List String} (some : entries ≠ []) :
    withCommas entries ≠ [] := by
  simp [withCommas, List.getLast?_eq_some_getLast some]

theorem commaLines_eq (entries : List String) : commaLines entries = withCommas entries := by
  fun_induction commaLines entries with
  | case1 => rfl
  | case2 entry => rfl
  | case3 entry entries some ih => rw [withCommas_cons some, ih]

/-- On one line the entries have a blank between them. -/
theorem intercalate_commas (entries : List String) :
    ", ".intercalate entries = joinWords (withCommas entries) := by
  induction entries with
  | nil => rfl
  | cons entry entries ih =>
      by_cases none : entries = []
      · rw [none]
        simp [withCommas, joinWords]
      · have comma : ", " = "," ++ " " := rfl
        rw [withCommas_cons none, String.intercalate_cons_of_ne_nil none, ih, joinWords, joinWords,
          String.intercalate_cons_of_ne_nil (withCommas_ne_nil none), comma]
        simp only [String.append_assoc]

/-- A list in parentheses with an entry a line, or one line for none. -/
def listLines (depth : Nat) (opening closing : String) (empty : Line) (entries : List String) :
    List Line :=
  if entries = [] then [empty]
  else [.text depth opening] ++ (withCommas entries).map (.text (depth + 1))
    ++ [.text depth closing]

/-- A list is written only if all its entries can be, and then it has an entry for each element. -/
theorem listed_eq_ok {α : Type} {xs : List α} {entryOf : α → Except Cause String} {depth : Nat}
    {opening closing : String} {empty : Line} {ls : List Line} :
    (if xs.isEmpty then pure [empty]
      else xs.mapM entryOf >>= fun entries =>
        pure ([.text depth opening] ++ (commaLines entries).map (.text (depth + 1))
          ++ [.text depth closing])) = Except.ok ls ↔
      ∃ entries, List.Forall₂ (fun x entry => entryOf x = .ok entry) xs entries ∧
        ls = listLines depth opening closing empty entries := by
  cases xs with
  | nil =>
      simp only [List.isEmpty_nil, ↓reduceIte, pure_eq_ok, List.forall₂_nil_left_iff,
        exists_eq_left, listLines]
      exact eq_comm
  | cons x xs =>
      simp only [List.isEmpty_cons, Bool.false_eq_true, ↓reduceIte, bind_eq_ok, pure_eq_ok,
        mapM_eq_ok, commaLines_eq]
      refine exists_congr fun entries => and_congr_right fun each => ?_
      have some : entries ≠ [] := by
        intro none
        rw [none] at each
        cases each
      rw [listLines, if_neg some]
      exact eq_comm

theorem parameterLines_eq_ok {parameters : List Param} {ls : List Line} :
    parameterLines .verilog parameters = .ok ls ↔
      ∃ entries, List.Forall₂ (fun p entry => parameterDeclaration .verilog p = .ok entry)
        parameters entries ∧
        ls = listLines 0 "#(" ")" (.comment .verilog 0 "No parameters") entries :=
  listed_eq_ok

theorem portLines_eq_ok {ports : List (Port × Signal)} {ls : List Line} :
    portLines ports = .ok ls ↔
      ∃ entries, List.Forall₂ (fun port entry => portDeclaration port = .ok entry) ports entries ∧
        ls = listLines 0 "(" ");" (.text 0 "( ); // No ports") entries :=
  listed_eq_ok

/-! ### Declarations -/

/-- A signal as it is declared, with a range if it has more than one bit. -/
def declared (s : Signal) : String :=
  if 1 < s.width then "[" ++ toString (s.width.toNat - 1) ++ ":0] " ++ s.name else s.name

theorem rangeText_append (s : Signal) : rangeText s ++ s.name = declared s := by
  unfold rangeText declared
  split
  · rfl
  · exact String.empty_append

/-- The declarations of the signals that are no ports. -/
def wireLines (wires : List Signal) : List Line :=
  if wires = [] then [.comment .verilog 1 "No Signal Declarations"]
  else .comment .verilog 1 "Signal Declarations"
    :: wires.map fun s => .text 1 ("wire " ++ declared s ++ ";")

theorem signalLines_eq (wires : List Signal) : signalLines .verilog wires = wireLines wires := by
  unfold signalLines wireLines
  cases wires with
  | nil => rfl
  | cons s wires =>
      simp only [String.append_assoc, rangeText_append]
      rfl

theorem portDeclaration_eq_ok {port : Port × Signal} {entry : String} :
    portDeclaration port = .ok entry ↔
      ∃ keyword, directionKeyword port.1 = .ok keyword ∧
        entry = keyword ++ " wire " ++ declared port.2 := by
  simp only [portDeclaration, bind_eq_ok, pure_eq_ok, String.append_assoc, rangeText_append]
  exact exists_congr fun keyword => and_congr_right fun _ => eq_comm

end Verilog

/-! ### Connections -/

namespace Target

mutual

/-- A target as an expression over the names of signals. -/
def verilogText : Target → String
  | .signal name => name
  | .slice r =>
    if r.top = r.bottom then r.signal ++ "[" ++ toString r.top.toNat ++ "]"
    else r.signal ++ "[" ++ toString r.top.toNat ++ ":" ++ toString r.bottom.toNat ++ "]"
  | .concat parts => "\x7b" ++ ", ".intercalate (verilogTexts parts) ++ "\x7d"

def verilogTexts : List Target → List String
  | [] => []
  | part :: parts => verilogText part :: verilogTexts parts

end

mutual

/-- A table decides whether a target has a text, but not on the text. -/
theorem verilogText_of_textIn {t : SignalTable} : ∀ {target : Target} {text : String},
    target.textIn .verilog t = .ok text → text = target.verilogText
  | .signal name, text, h => by
      simp only [textIn, bind_eq_ok, pure_eq_ok, SignalTable.get_eq_ok] at h
      obtain ⟨s, found, rfl⟩ := h
      rw [verilogText]
      exact SignalTable.name_of_find? found
  | .slice r, text, h => by
      simp only [textIn, bind_eq_ok, pure_eq_ok] at h
      obtain ⟨-, -, rfl⟩ := h
      rw [verilogText]
      rfl
  | .concat [], text, h => by
      simp only [textIn] at h
      exact absurd h throw_ne_ok
  | .concat (part :: parts), text, h => by
      simp only [textIn, bind_eq_ok, pure_eq_ok] at h
      obtain ⟨first, one, others, rest, rfl⟩ := h
      rw [verilogText, verilogTexts, ← verilogText_of_textIn one, ← verilogTexts_of_textsIn rest]
      rfl

theorem verilogTexts_of_textsIn {t : SignalTable} : ∀ {parts : List Target} {texts : List String},
    textsIn .verilog t parts = .ok texts → texts = verilogTexts parts
  | [], texts, h => by
      simp only [textsIn, pure_eq_ok] at h
      rw [verilogTexts, h]
  | part :: parts, texts, h => by
      simp only [textsIn, bind_eq_ok, pure_eq_ok] at h
      obtain ⟨first, one, others, rest, rfl⟩ := h
      rw [verilogTexts, ← verilogText_of_textIn one, ← verilogTexts_of_textsIn rest]

end

end Target

/-! ### Instances -/

namespace Verilog

/-- What an instance can refer to. -/
inductive Subcircuit : Resolved → String → Prop
  | internal (definition : Module) (name : String) : Subcircuit (.internal definition name) name
  | external (definition : ExternalModule) (name : String) :
      Subcircuit (.external definition name) name

/-- The lines of an instance. -/
def instanceBlock (name : String) (i : Instance) (overrides bindings : List String) : List Line :=
  [.text 1 name,
    if overrides = [] then .comment .verilog 1 "No parameters"
    else .text 1 ("#( " ++ joinWords (withCommas overrides) ++ " )"),
    .text 1 i.name]
    ++ listLines 1 "(" ");" (.text 1 "( );") bindings ++ [.blank 1]

/-- What is given to a parameter or a port, by its name. -/
def byName (name text : String) : String :=
  "." ++ name ++ "(" ++ text ++ ")"

/-- The parameters by name. -/
def overridesOf (params : ParamTable) : List String :=
  params.entries.map fun entry => byName entry.1 (entry.2.render .verilog)

theorem overridesLine_eq (params : ParamTable) :
    overridesLine .verilog params
      = if overridesOf params = [] then .comment .verilog 1 "No parameters"
        else .text 1 ("#( " ++ joinWords (withCommas (overridesOf params)) ++ " )") := by
  rw [← intercalate_commas]
  unfold overridesLine ParamTable.isEmpty overridesOf
  cases params.entries with
  | nil => rfl
  | cons entry entries => rfl

theorem bindingLines_eq (bindings : List PortBinding) :
    bindingLines bindings = listLines 1 "(" ");" (.text 1 "( );")
      (bindings.map fun b => byName b.port b.text) := by
  unfold bindingLines listLines
  cases bindings with
  | nil => rfl
  | cons b bindings =>
      simp only [commaLines_eq]
      rfl

theorem subcircuit_of_instanceLines {i : Instance} {target : Resolved} {params : ParamTable}
    {bindings : List PortBinding} {ls : List Line}
    (laid : instanceLines .verilog i target params bindings = .ok ls) :
    ∃ name, Subcircuit target name ∧ ls = instanceBlock name i (overridesOf params)
      (bindings.map fun b => byName b.port b.text) := by
  unfold instanceLines at laid
  rw [overridesLine_eq, bindingLines_eq] at laid
  cases target with
  | internal definition name =>
      obtain rfl := pure_eq_ok.mp laid
      exact ⟨name, .internal definition name, rfl⟩
  | external definition name =>
      obtain rfl := pure_eq_ok.mp laid
      exact ⟨name, .external definition name, rfl⟩
  | primitive definition => exact absurd laid throw_bind_ne_ok
  | model definition name => exact absurd laid throw_bind_ne_ok

/-- An instance as it stands in the text of a module, and what its parameters, its ports and its
connections have to do with it. -/
structure ShowsInstance (m : Module) (scope : Scope) (i : Instance) (target : Resolved)
    (name : String) (overrides bindings : List String) (block : List Line) : Prop where
  stands : StandsFor (m :: scope.modules) scope.externals i.reference target
  subcircuit : Subcircuit target name
  params : ∃ merged, resolveParams .verilog i.parameters target.parameters = .ok merged ∧
    overrides = overridesOf merged.table
  once : (i.connections.map (·.port)).Nodup
  known : ∀ c ∈ i.connections, c.port ∈ target.ports.map (·.signal)
  within : ∀ c ∈ i.connections, ∀ leaf ∈ c.target.leaves, leaf.Fits m.signals
  bound : List.Forall₂ (fun p binding => ∃ c ∈ i.connections, c.port = p.signal ∧
    binding = byName p.signal c.target.verilogText) target.ports bindings
  lines : block = instanceBlock name i overrides bindings

/-- All connections of a written instance are bound, so all of them have a text. -/
theorem showsInstance_of_written {m : Module} {t : SignalTable} {scope before after : Scope}
    {i : Instance} {target : Resolved} {merged : ResolvedParams} {bindings : List PortBinding}
    {block : List Line} (table : t.Describes m)
    (modules : before.modules = m :: scope.modules) (externals : before.externals = scope.externals)
    (w : i.Written .verilog t before target merged bindings block after) :
    ∃ name, ShowsInstance m scope i target name (overridesOf merged.table)
      (bindings.map fun b => byName b.port b.text) block := by
  obtain ⟨name, subcircuit, lines⟩ := subcircuit_of_instanceLines w.lines
  obtain ⟨known, once, bound⟩ := bindPorts_eq_ok.mp w.bound
  have stands := (Scope.standsFor_of_resolve w.resolved).1
  rw [modules, externals] at stands
  refine ⟨name, stands, subcircuit, ⟨merged, w.params, rfl⟩, once, known, ?_, ?_, lines⟩
  · intro c mem
    obtain ⟨text, written⟩ := text_of_bound once bound mem (known c mem)
    have fits := Target.fits_of_textIn (table.signals ▸ table.names) (table.signals ▸ table.widths)
      written
    rwa [table.signals] at fits
  · rw [List.forall₂_map_right_iff]
    refine bound.imp fun p b one => ?_
    obtain ⟨c, found, named, text⟩ := bindPort_eq_ok.mp one
    have same : c.port = p.signal := by simpa using List.find?_some found
    refine ⟨c, List.mem_of_find?_eq_some found, same, ?_⟩
    rw [named, Target.verilogText_of_textIn text]

end Verilog

/-! ### Modules -/

namespace Module

/-- The lines of a module. -/
def verilogLines (m : Module) (parameters ports : List String) (wires : List Signal)
    (blocks : List (List Line)) : List Line :=
  [.text 0 ("module " ++ sanitize m.name)]
    ++ Verilog.listLines 0 "#(" ")" (.comment .verilog 0 "No parameters") parameters
    ++ Verilog.listLines 0 "(" ");" (.text 0 "( ); // No ports") ports
    ++ [.blank 0] ++ Verilog.wireLines wires ++ [.blank 1]
    ++ [Verilog.instancesLine .verilog m.instances] ++ blocks.flatten
    ++ m.literals.map (.text 1) ++ [.text 0 ("endmodule // " ++ sanitize m.name), .blank 0]

/-- The signals of a module, those of the ports in the header and all others as wires. -/
structure Declares (m : Module) (header : List (Port × Signal)) (wires : List Signal) : Prop where
  ports : header.map (·.1) = m.ports
  named : ∀ port ∈ header, port.2.name = port.1.signal
  others : wires = m.signals.filter (·.name ∉ m.ports.map (·.signal))
  once : (header.map (·.2) ++ wires).Perm m.signals
  names : ((header.map (·.2) ++ wires).map (·.name)).Nodup

theorem declares_of_describes {m : Module} {t : SignalTable} (h : t.Describes m) :
    m.Declares t.ports t.internal :=
  ⟨h.ports, fun port mem => SignalTable.name_of_find? (h.found port mem), h.internal_eq,
    h.parts_perm, h.nodup_parts⟩

/-- The instances are written block by block, in scopes with the same modules. -/
theorem blocks_of_instances {m : Module} {t : SignalTable} {scope inner after : Scope}
    {body : List Line} (table : t.Describes m) (modules : inner.modules = m :: scope.modules)
    (externals : inner.externals = scope.externals)
    (run : (Instance.scriptAll .verilog t inner m.instances).Writes body after) :
    ∃ blocks, List.Forall₂ (fun i block => ∃ target name overrides bindings,
      Verilog.ShowsInstance m scope i target name overrides bindings block) m.instances blocks ∧
      body = blocks.flatten := by
  have kept : ∀ (s : Scope) (i : Instance) (next : Scope) (ls : List Line),
      s.modules = m :: scope.modules ∧ s.externals = scope.externals →
        (i.script .verilog t s).Writes ls next →
          next.modules = m :: scope.modules ∧ next.externals = scope.externals := by
    intro s i next ls before here
    obtain ⟨target, merged, bindings, w⟩ := Instance.writes_script.mp here
    have same := (Scope.standsFor_of_resolve w.resolved).2
    exact ⟨w.keeps.modules.trans before.1, same.trans before.2⟩
  obtain ⟨blocks, each, rfl⟩ := Writes.blocks _ kept ⟨modules, externals⟩ run
  refine ⟨blocks, each.imp fun i block one => ?_, rfl⟩
  obtain ⟨before, next, ⟨modules, externals⟩, here⟩ := one
  obtain ⟨target, merged, bindings, w⟩ := Instance.writes_script.mp here
  obtain ⟨name, shown⟩ := Verilog.showsInstance_of_written table modules externals w
  exact ⟨target, name, _, _, shown⟩

end Module

/-- A module that is written in Verilog declares each signal once, with a range if it has more than
one bit: those of the ports in the header, in the order of the ports and with their directions, and
all others as wires in the body, in declared order. Each instance has one binding by name for each
port of what it refers to, in the order of these, and all that is connected is declared and within
its range. In every list all entries but the last have a comma behind them. -/
theorem verilog_module_declares_and_binds {scope after : Scope} {m : Module}
    (written : (m.script .verilog scope).result = .ok after) :
    ∃ parameters ports header wires blocks,
      (m.script .verilog scope).lines = m.verilogLines parameters ports wires blocks ∧
      List.Forall₂ (fun p entry => Verilog.parameterDeclaration .verilog p = .ok entry)
        m.parameters parameters ∧
      List.Forall₂ (fun (port : Port × Signal) entry => ∃ keyword,
        Verilog.directionKeyword port.1 = .ok keyword ∧
        entry = keyword ++ " wire " ++ Verilog.declared port.2) header ports ∧
      m.Declares header wires ∧
      List.Forall₂ (fun i block => ∃ target name overrides bindings,
        Verilog.ShowsInstance m scope i target name overrides bindings block)
        m.instances blocks := by
  obtain ⟨inner, name, t, opening, body, w, lines⟩ :=
    Module.writes_script.mp (writes_of_result written)
  have table := SignalTable.ofModule_eq_ok.mp w.table
  have externals : inner.externals = scope.externals := by
    obtain ⟨-, -, names, -, rfl⟩ := Scope.define_eq_ok.mp w.defined
    rfl
  obtain ⟨blocks, instances, rfl⟩ :=
    Module.blocks_of_instances table w.modules_inner externals w.instances
  obtain ⟨rfl, -⟩ := Scope.define_eq_ok.mp w.defined
  have opened := w.opened
  simp only [Module.openingLines, Dialect.family, bind_eq_ok, pure_eq_ok,
    Verilog.parameterLines_eq_ok, Verilog.portLines_eq_ok] at opened
  obtain ⟨_, ⟨parameters, parameterEach, rfl⟩, _, ⟨ports, portEach, rfl⟩, rfl⟩ := opened
  refine ⟨parameters, ports, t.ports, t.internal, blocks, ?_, parameterEach, ?_,
    Module.declares_of_describes table, instances⟩
  · rw [lines, Verilog.signalLines_eq]
    simp [Module.verilogLines, Module.closingLines, Dialect.family]
  · exact portEach.imp fun port entry one => Verilog.portDeclaration_eq_ok.mp one

/-- A module with a parameter of its own for each of its two ports. -/
def shifter : Module :=
  { name := "shift"
    ports := [⟨"o", .output⟩, ⟨"i", .input⟩]
    signals := [⟨"i", 1⟩, ⟨"o", 3⟩]
    parameters := [.required "load", .withValue "delay" (.int 2)] }

/-- A bus and a wire, and an instance whose connections are not in the order of its ports. -/
def wrapper : Module :=
  { name := "top"
    ports := [⟨"bus", .inout⟩, ⟨"en", .input⟩]
    signals := [⟨"x", 1⟩, ⟨"bus", 4⟩, ⟨"en", 1⟩]
    instances := [{
      name := "u0"
      reference := .internal "shift"
      parameters := [.withValue "load" (.int 3)]
      connections := [⟨"i", .signal "en"⟩,
        ⟨"o", .concat [.signal "x", .slice ⟨"bus", 2, 1⟩]⟩] }] }

/-- The wire is the one signal that is declared in the body. -/
theorem verilog_module_declares_and_binds_wrapper :
    ∃ after, (wrapper.script .verilog { modules := [shifter] }).result = .ok after ∧
      (∃ parameters ports header blocks, wrapper.Declares header [⟨"x", 1⟩] ∧
        (wrapper.script .verilog { modules := [shifter] }).lines
          = wrapper.verilogLines parameters ports [⟨"x", 1⟩] blocks) ∧
      (wrapper.script .verilog { modules := [shifter] }).lines = [.text 0 "module top",
        .text 0 "// No parameters", .text 0 "(", .text 1 "inout wire [3:0] bus,",
        .text 1 "input wire en", .text 0 ");", .blank 0, .text 1 "// Signal Declarations",
        .text 1 "wire x;", .blank 1, .text 1 "// Instance Declarations", .text 1 "shift",
        .text 1 "#( .load(3), .delay(2) )", .text 1 "u0", .text 1 "(",
        .text 2 ".o(\x7bx, bus[2:1]\x7d),", .text 2 ".i(en)", .text 1 ");", .blank 1,
        .text 0 "endmodule // top", .blank 0] := by
  have written : (wrapper.script .verilog { modules := [shifter] }).result = .ok _ := rfl
  obtain ⟨parameters, ports, header, wires, blocks, lines, -, -, declares, -⟩ :=
    verilog_module_declares_and_binds written
  obtain rfl : wires = [⟨"x", 1⟩] := declares.others
  exact ⟨_, written, ⟨parameters, ports, header, blocks, declares, lines⟩, rfl⟩

end CircuitNetlist
