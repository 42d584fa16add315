import CircuitNetlist.Proofs.ConnectionText

/-!
# Bound ports

An accepted instance connects every port of its target exactly once and nothing else. What its
line of nodes says is the texts of the bound targets in the order of the ports, so that it is
read like one concatenation of them.
-/
namespace CircuitNetlist

/-- What the ports are connected to, in the order of the ports. -/
def boundTargets (ports : List Port) (connections : List Connection) : List Target :=
  ports.filterMap fun p => (connections.find? (·.port == p.signal)).map (·.target)

theorem addConnection_eq_ok {target : Resolved} {before after : List Connection}
    {c : Connection} :
    addConnection target before c = .ok after ↔
      ∃ new, id new = c ∧ new.port ∈ target.ports.map (·.signal)
        ∧ new.port ∉ before.map (·.port) ∧ after = before ++ [new] := by
  unfold addConnection
  have known : target.ports.any (·.signal == c.port) = true ↔
      c.port ∈ target.ports.map (·.signal) := by
    simp
  have twice : before.any (·.port == c.port) = true ↔ c.port ∈ before.map (·.port) := by
    simp
  simp only [id, exists_eq_left, ← known, ← twice]
  cases target.ports.any (·.signal == c.port) with
  | false => simp [throw_ne_ok]
  | true =>
      cases before.any (·.port == c.port) with
      | true => simp [throw_ne_ok]
      | false =>
          simp only [Bool.not_true, Bool.false_eq_true, ↓reduceIte, pure_eq_ok, not_false_eq_true,
            true_and]
          exact eq_comm

theorem bindPort_eq_ok {d : Dialect} {t : SignalTable} {connections : List Connection} {p : Port}
    {b : PortBinding} :
    bindPort d t connections p = .ok b ↔
      ∃ c, connections.find? (·.port == p.signal) = some c ∧ b.port = p.signal
        ∧ c.target.textIn d t = .ok b.text := by
  unfold bindPort
  cases found : connections.find? (·.port == p.signal) with
  | none => simp [throw_ne_ok]
  | some c =>
      simp only [bind_eq_ok, pure_eq_ok, Option.some.injEq, exists_eq_left']
      constructor
      · intro h
        obtain ⟨text, one, rfl⟩ := h
        exact ⟨rfl, one⟩
      · intro h
        exact ⟨b.text, h.2, by rw [← h.1]⟩

/-- The connections of an instance that is in order, and what its ports are bound to. -/
structure Binds (d : Dialect) (t : SignalTable) (target : Resolved)
    (connections : List Connection) (bindings : List PortBinding) : Prop where
  known : ∀ c ∈ connections, c.port ∈ target.ports.map (·.signal)
  once : (connections.map (·.port)).Nodup
  bound : List.Forall₂ (fun p b => bindPort d t connections p = .ok b) target.ports bindings

theorem bindPorts_eq_ok {d : Dialect} {t : SignalTable} {target : Resolved}
    {connections : List Connection} {bindings : List PortBinding} :
    bindPorts d t target connections = .ok bindings ↔
      Binds d t target connections bindings := by
  have noConnections : (([] : List Connection).map (·.port)).Nodup := List.nodup_nil
  simp only [bindPorts, bind_eq_ok, collect_eq_ok addConnection_eq_ok noConnections, mapM_eq_ok,
    List.nil_append, List.map_id, exists_eq_left']
  constructor
  · intro h
    obtain ⟨accepted, ⟨rfl, known, once⟩, bound⟩ := h
    exact ⟨known, once, bound⟩
  · intro h
    exact ⟨connections, ⟨rfl, h.known, h.once⟩, h.bound⟩

section Bound
variable {d : Dialect} {t : SignalTable} {connections : List Connection} {ports : List Port}
  {bindings : List PortBinding}

theorem length_boundTargets
    (bound : List.Forall₂ (fun p b => bindPort d t connections p = .ok b) ports bindings) :
    (boundTargets ports connections).length = ports.length := by
  induction bound with
  | nil => rfl
  | cons one rest ih =>
      obtain ⟨c, found, -, -⟩ := bindPort_eq_ok.mp one
      simp only [boundTargets, List.filterMap_cons, found, Option.map_some, List.length_cons]
      exact congrArg Nat.succ ih

theorem ports_of_bound
    (bound : List.Forall₂ (fun p b => bindPort d t connections p = .ok b) ports bindings) :
    bindings.map (·.port) = ports.map (·.signal) := by
  induction bound with
  | nil => rfl
  | cons one rest ih =>
      obtain ⟨c, -, named, -⟩ := bindPort_eq_ok.mp one
      rw [List.map_cons, List.map_cons, named, ih]

/-- A connection to one of the ports has a text. -/
theorem text_of_bound (once : (connections.map (·.port)).Nodup)
    (bound : List.Forall₂ (fun p b => bindPort d t connections p = .ok b) ports bindings)
    {c : Connection} (mem : c ∈ connections) (known : c.port ∈ ports.map (·.signal)) :
    ∃ text, c.target.textIn d t = .ok text := by
  induction bound with
  | nil => simp at known
  | @cons p b ports bindings one rest ih =>
      rcases List.mem_cons.mp known with here | later
      · obtain ⟨c', found, -, text⟩ := bindPort_eq_ok.mp one
        rw [show p.signal = c.port from here.symm, find?_of_nodup once mem,
          Option.some.injEq] at found
        exact ⟨b.text, found ▸ text⟩
      · exact ih later

/-- The bound texts read as one concatenation of what the ports are connected to. -/
theorem reads_of_bound (expands : d.family ≠ .verilog) (widths : ∀ s ∈ t.signals, s.width ≠ 0)
    (bound : List.Forall₂ (fun p b => bindPort d t connections p = .ok b) ports bindings) :
    Target.Reads d t.signals ((boundTargets ports connections).flatMap Target.leaves)
      (bindings.map (·.text)) := by
  induction bound with
  | nil => exact ⟨by simp [boundTargets], by simp [boundTargets], by simp [boundTargets]⟩
  | @cons p b ports bindings one rest ih =>
      obtain ⟨c, found, -, text⟩ := bindPort_eq_ok.mp one
      have first := Target.reads_of_textIn expands widths text
      have targets : boundTargets (p :: ports) connections
          = c.target :: boundTargets ports connections := by
        simp [boundTargets, found]
      rw [targets, List.flatMap_cons, List.map_cons]
      exact first.append widths ih

end Bound

end CircuitNetlist
