import CircuitNetlist.Proofs.PortBindings
import CircuitNetlist.Proofs.WrittenNetlists

/-!
# Nodes by position

A subcircuit and its instances agree on nodes by position only. Both lines are written port by
port: the definition writes the bits of each port's signal, the instance the bits of what the
port is bound to. Nothing compares the two widths, so that the positions belong together exactly
if every port is bound to a target of its own width.
-/
namespace CircuitNetlist

open Script

/-! ### Matching groups by position -/

section Positions
variable {α β : Type}

theorem length_flatten_zip_le (xss : List (List α)) (yss : List (List β)) :
    (List.zipWith List.zip xss yss).flatten.length ≤ xss.flatten.length ∧
      (List.zipWith List.zip xss yss).flatten.length ≤ yss.flatten.length := by
  induction xss generalizing yss with
  | nil => simp
  | cons xs xss ih =>
      cases yss with
      | nil => simp
      | cons ys yss =>
          have rest := ih yss
          simp only [List.zipWith_cons_cons, List.flatten_cons, List.length_append,
            List.length_zip]
          omega

/-- Two rows of groups match by position, group by group, exactly if their groups have the same
lengths. -/
theorem zip_flatten_iff {xss : List (List α)} {yss : List (List β)}
    (groups : xss.length = yss.length) :
    (xss.flatten.length = yss.flatten.length ∧
      xss.flatten.zip yss.flatten = (List.zipWith List.zip xss yss).flatten) ↔
    xss.map List.length = yss.map List.length := by
  induction xss generalizing yss with
  | nil =>
      have none := List.length_eq_zero_iff.mp groups.symm
      simp [none]
  | cons xs xss ih =>
      cases yss with
      | nil => simp at groups
      | cons ys yss =>
          have groups' : xss.length = yss.length := Nat.succ.inj groups
          simp only [List.flatten_cons, List.zipWith_cons_cons, List.map_cons, List.cons.injEq]
          constructor
          · intro h
            obtain ⟨total, pairs⟩ := h
            -- a shorter group would lose a pair that no other group can make up for
            have count := congrArg List.length pairs
            have bound := length_flatten_zip_le xss yss
            simp only [List.length_append, List.length_zip] at total count
            have first : xs.length = ys.length := by omega
            rw [List.zip_append first, List.append_cancel_left_eq] at pairs
            exact ⟨first, (ih groups').mp ⟨by omega, pairs⟩⟩
          · intro h
            obtain ⟨first, rest⟩ := h
            obtain ⟨total, pairs⟩ := (ih groups').mpr rest
            rw [List.zip_append first, pairs, List.length_append, List.length_append, first, total]
            exact ⟨rfl, rfl⟩

end Positions

/-! ### The two lines -/

/-- The nodes of a module's ports, port by port. -/
def SignalTable.portNodes (t : SignalTable) (d : Dialect) : List (List String) :=
  t.ports.map fun port => port.2.bits d

/-- The nodes that the ports are bound to, port by port. -/
def boundNodes (d : Dialect) (signals : List Signal) (ports : List Port)
    (connections : List Connection) : List (List String) :=
  (boundTargets ports connections).map (Target.nodes d signals)

/-- The first lines of a subcircuit: its name and the nodes of its ports. -/
def definitionHead (d : Dialect) (name : String) (nodes : String) : List Line :=
  match d.family with
  | .spice => [.text 0 (".SUBCKT " ++ name), continuationOr d 0 "No ports" nodes]
  | .spectre => [.text 0 ("subckt " ++ name), continuationOr d 1 "No ports" nodes]
  | .verilog => []

/-- The first lines of an instance of a subcircuit: its name, its nodes and its target. -/
def instanceHead (d : Dialect) (i : Instance) (bindings : List PortBinding) (name : String) :
    List Line :=
  match d.family with
  | .spice => [Spice.nameLine .subcircuit i.name, Spice.nodesLine d bindings,
      .continuation 0 name]
  | .spectre => [.text 1 i.name, Spectre.nodesLine bindings, .continuation 1 name]
  | .verilog => []

theorem definitionHead_opens {d : Dialect} {m : Module} {name : String} {t : SignalTable}
    {opening : List Line} (opened : m.openingLines d name t = .ok opening) :
    definitionHead d name (joinWords (t.portNodes d).flatten) <+: opening := by
  have nodes : joinWords (t.portNodes d).flatten = t.portList d := rfl
  rw [nodes]
  unfold Module.openingLines at opened
  unfold definitionHead
  cases family : d.family with
  | spice =>
      simp only [family, bind_eq_ok, pure_eq_ok] at opened
      obtain ⟨parameters, -, rfl⟩ := opened
      exact ⟨[parameters, .blank 0], rfl⟩
  | spectre =>
      simp only [family, bind_eq_ok, pure_eq_ok] at opened
      obtain ⟨parameters, -, rfl⟩ := opened
      exact ⟨[parameters, .blank 1], rfl⟩
  | verilog => exact List.nil_prefix

theorem instanceHead_opens {d : Dialect} {i : Instance} {n : Module} {name : String}
    {params : ParamTable} {bindings : List PortBinding} {lines : List Line}
    (laid : instanceLines d i (.internal n name) params bindings = .ok lines) :
    instanceHead d i bindings name <+: lines := by
  unfold instanceLines at laid
  unfold instanceHead
  cases family : d.family with
  | spice =>
      simp only [family, Spice.instanceLines, pure_bind, pure_eq_ok] at laid
      exact ⟨_, laid⟩
  | spectre =>
      simp only [family, Spectre.instanceLines, pure_bind, pure_eq_ok] at laid
      exact ⟨_, laid⟩
  | verilog => exact List.nil_prefix

/-! ### What the lines say -/

theorem length_boundNodes {d : Dialect} {signals : List Signal} {ports : List Port}
    {connections : List Connection}
    (fits : ∀ leaf ∈ (boundTargets ports connections).flatMap Target.leaves, leaf.Fits signals) :
    (boundNodes d signals ports connections).map List.length
      = (boundTargets ports connections).map fun target => (target.bits signals).length := by
  rw [boundNodes, List.map_map]
  apply List.map_congr_left
  intro target mem
  apply Target.length_nodes
  intro leaf here
  exact fits leaf (List.mem_flatMap.mpr ⟨target, mem, here⟩)

/-- Both lines are written port by port, the definition's with as many nodes for a port as its
signal is wide, the instance's with as many as the bound target has bits. They have as many
nodes, and match port by port and bit by bit, exactly if these widths agree for every port. -/
theorem instance_nodes_by_position {d : Dialect} {options : Options} {p : Package} {scope : Scope}
    (written : (p.script d options .empty).result = .ok scope) (expands : d.family ≠ .verilog)
    {m : Module} (here : m ∈ p.modules) {i : Instance} (inside : i ∈ m.instances) {name : String}
    (refers : i.reference = .internal name) :
    ∃ n ∈ p.modules, n.name = name ∧ ∃ s t bindings,
      SignalTable.ofModule n = .ok s ∧ SignalTable.ofModule m = .ok t ∧
      let lines := (p.script d options .empty).lines
      let declared := s.portNodes d
      let bound := boundNodes d m.signals n.ports i.connections
      let widths := s.ports.map fun port => port.2.width.toNat
      let boundWidths := (boundTargets n.ports i.connections).map fun target =>
        (target.bits m.signals).length
      definitionHead d (sanitize name) (joinWords declared.flatten) <:+: lines ∧
      instanceHead d i bindings (sanitize name) <:+: lines ∧
      bindings.map (·.port) = n.ports.map (·.signal) ∧
      joinWords (bindings.map (·.text)) = joinWords bound.flatten ∧
      declared.map List.length = widths ∧ bound.map List.length = boundWidths ∧
      ((declared.flatten.length = bound.flatten.length ∧
          declared.flatten.zip bound.flatten = (List.zipWith List.zip declared bound).flatten) ↔
        widths = boundWidths) := by
  have run := writes_of_result written
  obtain ⟨k, place⟩ := List.getElem?_of_mem here
  obtain ⟨j, n, -, there, named, t, before, merged, bindings, lines, next, table, w, shown⟩ :=
    Package.written_reference run place inside refers
  obtain ⟨_, _, _, netlistName, s, opening, _, _, v, part⟩ := Package.written_at run there
  have describes := SignalTable.ofModule_eq_ok.mp table
  have widths : ∀ s ∈ t.signals, s.width ≠ 0 := describes.signals ▸ describes.widths
  have binds : List.Forall₂ (fun p b => bindPort d t i.connections p = .ok b) n.ports bindings :=
    (bindPorts_eq_ok.mp w.bound).bound
  have reads := reads_of_bound expands widths binds
  rw [describes.signals] at reads
  have lengths := length_boundNodes (d := d) reads.fits
  have declaredLengths : (s.portNodes d).map List.length
      = s.ports.map fun port => port.2.width.toNat := by
    simp [SignalTable.portNodes]
  have groups : (s.portNodes d).length
      = (boundNodes d m.signals n.ports i.connections).length := by
    have ports := congrArg List.length (SignalTable.ofModule_eq_ok.mp v.table).ports
    rw [List.length_map] at ports
    simp only [SignalTable.portNodes, boundNodes, List.length_map]
    rw [ports]
    exact (length_boundTargets binds).symm
  refine ⟨n, List.mem_of_getElem? there, named, s, t, bindings, v.table, table, ?_, ?_,
    ports_of_bound binds, ?_, declaredLengths, lengths, ?_⟩
  · have netlist := (Scope.define_eq_ok.mp v.defined).1
    rw [named] at netlist
    have head := definitionHead_opens v.opened
    rw [netlist] at head
    have first : opening <:+: (p.script d options .empty).lines := by
      refine List.IsInfix.trans ?_ part
      rw [List.append_assoc]
      exact (List.prefix_append _ _).isInfix
    exact head.isInfix.trans first
  · exact (instanceHead_opens w.lines).isInfix.trans shown
  · rw [reads.joined, boundNodes, ← List.flatMap_def, List.flatMap_assoc]
    rfl
  · rw [zip_flatten_iff groups, declaredLengths, lengths]

/-- An instance that binds the port of another module to its own, with a width for each. -/
def boundPort (port bound : UInt64) : Package :=
  { modules := [({ name := "leaf" } : Module).withBusPort "p" port .inout,
      (({ name := "top" } : Module).withBusPort "a" bound .inout).withInstance
        { name := "0", reference := .internal "leaf",
          connections := [{ port := "p", target := .signal "a" }] }] }

/-- Two bits for two bits: the nodes match bit by bit. -/
theorem instance_nodes_by_position_bus :
    ∃ n ∈ (boundPort 2 2).modules, ∃ s, SignalTable.ofModule n = .ok s ∧
      (s.portNodes .spice).flatten.zip
          (boundNodes .spice [⟨"a", 2⟩] n.ports [⟨"p", .signal "a"⟩]).flatten
        = [("p_1", "a_1"), ("p_0", "a_0")] := by
  have written : ((boundPort 2 2).script .spice {} .empty).result = .ok _ := rfl
  have top : (boundPort 2 2).modules[1] ∈ (boundPort 2 2).modules := List.getElem_mem _
  obtain ⟨n, here, named, s, t, bindings, table, -, -, -, -, -, -, -, positions⟩ :=
    instance_nodes_by_position written (by decide) top (List.mem_singleton_self _) rfl
  refine ⟨n, here, s, table, ?_⟩
  have leaf : n = (boundPort 2 2).modules[0] := by
    rcases List.mem_cons.mp here with rfl | other
    · rfl
    · rw [List.mem_singleton.mp other] at named
      simp [Module.withInstance, Module.withBusPort] at named
  subst leaf
  obtain rfl := Except.ok.inj table
  exact (positions.mpr rfl).2

/-- Four bits for one: the definition has four nodes, its instance one. -/
theorem instance_nodes_by_position_short :
    ∃ scope, ((boundPort 4 1).script .spice {} .empty).result = .ok scope ∧
      definitionHead .spice "leaf" "p_3 p_2 p_1 p_0"
        <:+: ((boundPort 4 1).script .spice {} .empty).lines ∧
      [.text 0 "x0", .continuation 0 "a", .continuation 0 "leaf"]
        <:+: ((boundPort 4 1).script .spice {} .empty).lines := by
  refine ⟨_, rfl, ?_, ?_⟩
  · decide
  · decide

end CircuitNetlist
