import CircuitNetlist.Proofs.SignalTables

/-!
# Accepted modules

A module has a signal table exactly if its declarations fit together. The table then parts the
signals in two: those that the ports stand for, in the order of the ports, and the others in their
own order. A module that is put together declaration by declaration fits together as soon as its
signals have widths and names of their own, because a port comes with its signal.
-/
namespace CircuitNetlist

/-- The declarations of a module fit together. -/
structure Module.FitsTogether (m : Module) : Prop where
  widths : ∀ s ∈ m.signals, 1 ≤ s.width
  signals : (m.signals.map (·.name)).Nodup
  ports : (m.ports.map (·.signal)).Nodup
  declared : ∀ p ∈ m.ports, ∃ s ∈ m.signals, s.name = p.signal

namespace SignalTable

/-- Ports that name signals have signals. -/
theorem exists_signals {signals : List Signal} {ports : List Port}
    (declared : ∀ p ∈ ports, ∃ s ∈ signals, s.name = p.signal) :
    ∃ bound : List (Port × Signal), bound.map (·.1) = ports ∧
      ∀ port ∈ bound, find? signals port.1.signal = some port.2 := by
  induction ports with
  | nil => exact ⟨[], rfl, by simp⟩
  | cons p ports ih =>
      rw [List.forall_mem_cons] at declared
      obtain ⟨⟨s, mem, named⟩, others⟩ := declared
      obtain ⟨bound, sources, found⟩ := ih others
      have some : find? signals p.signal ≠ none := by
        rw [ne_eq, find?_eq_none_iff, not_not, ← named]
        exact List.mem_map_of_mem mem
      obtain ⟨s', here⟩ := Option.ne_none_iff_exists'.mp some
      exact ⟨(p, s') :: bound, congrArg (p :: ·) sources, List.forall_mem_cons.mpr ⟨here, found⟩⟩

theorem exists_table_iff {m : Module} : (∃ t, ofModule m = .ok t) ↔ m.FitsTogether := by
  have wide : ∀ s : Signal, 1 ≤ s.width ↔ s.width ≠ 0 := by
    intro s
    have one : (1 : UInt64).toNat = 1 := rfl
    have zero : (0 : UInt64).toNat = 0 := rfl
    rw [UInt64.le_iff_toNat_le, ne_eq, ← UInt64.toNat_inj, one, zero]
    omega
  constructor
  · intro accepted
    obtain ⟨t, accepted⟩ := accepted
    have h := ofModule_eq_ok.mp accepted
    refine ⟨fun s mem => (wide s).mpr (h.widths s mem), h.names, ?_, ?_⟩
    · rw [← h.ports, List.map_map]
      exact h.distinct
    · intro p mem
      rw [← h.ports] at mem
      obtain ⟨port, there, rfl⟩ := List.mem_map.mp mem
      have found := h.found port there
      exact ⟨port.2, mem_of_find? found, name_of_find? found⟩
  · intro fits
    obtain ⟨bound, sources, found⟩ := exists_signals fits.declared
    refine ⟨⟨m.signals, bound, m.signals.filter fun s => !bound.any (·.1.signal == s.name)⟩, ?_⟩
    refine ofModule_eq_ok.mpr
      ⟨rfl, fun s mem => (wide s).mp (fits.widths s mem), fits.signals, sources, found, ?_, rfl⟩
    have ports := fits.ports
    rw [← sources, List.map_map] at ports
    exact ports

namespace Describes
variable {t : SignalTable} {m : Module}

/-- The internal signals are those that no port stands for. -/
theorem internal_eq (h : t.Describes m) :
    t.internal = m.signals.filter (·.name ∉ m.ports.map (·.signal)) := by
  rw [h.internal, ← h.ports, List.map_map]
  apply List.filter_congr
  intro s _
  rw [Bool.eq_iff_iff, decide_eq_true_iff]
  simp

/-- The signals of the ports and the internal ones are all signals, each of them once. -/
theorem parts_perm (h : t.Describes m) : (t.ports.map (·.2) ++ t.internal).Perm m.signals := by
  have ports : (t.ports.map (·.2)).Perm
      (m.signals.filter fun s => t.ports.any (·.1.signal == s.name)) := by
    have distinct : (t.ports.map (·.2)).Nodup := by
      apply List.Nodup.of_map (·.name)
      rw [h.portSignals]
      exact h.distinct
    rw [List.perm_ext_iff_of_nodup distinct (h.names.of_map.filter _)]
    intro s
    rw [List.mem_map, List.mem_filter, List.any_eq_true]
    constructor
    · intro mem
      obtain ⟨port, there, rfl⟩ := mem
      have found := h.found port there
      exact ⟨mem_of_find? found, port, there, by simp [name_of_find? found]⟩
    · intro mem
      obtain ⟨declared, port, there, named⟩ := mem
      refine ⟨port, there, ?_⟩
      have own : find? m.signals s.name = some s := find?_of_nodup h.names declared
      rw [← eq_of_beq named, h.found port there] at own
      exact Option.some.inj own
  rw [h.internal]
  exact (ports.append_right _).trans (List.filter_append_perm _ m.signals)

theorem nodup_parts (h : t.Describes m) :
    ((t.ports.map (·.2) ++ t.internal).map (·.name)).Nodup :=
  (h.parts_perm.map (·.name)).nodup_iff.mpr h.names

end Describes

end SignalTable

/-! ### Modules put together -/

/-- One step of putting a module together. -/
inductive Declaration where
  | port (name : String) (width : UInt64) (direction : Direction)
  | signal (s : Signal)
  | parameter (p : Param)
  | part (i : Instance)
  | literal (line : String)

namespace Declaration

/-- The signal that comes with a declaration. -/
def signal? : Declaration → Option Signal
  | port name width _ => some { name, width }
  | signal s => some s
  | parameter _ | part _ | literal _ => none

def port? : Declaration → Option Port
  | port name _ direction => some { signal := name, direction }
  | signal _ | parameter _ | part _ | literal _ => none

end Declaration

namespace Module

/-- The module with one more declaration. -/
def declare (m : Module) : Declaration → Module
  | .port name width direction => m.withBusPort name width direction
  | .signal s => m.withSignal s
  | .parameter p => m.withParameter p
  | .part i => m.withInstance i
  | .literal line => m.withLiteral line

/-- What every step appends is there in the end, one after the other. -/
theorem foldl_declare {α : Type} (view : Module → List α) (item : Declaration → Option α)
    (one : ∀ m step, view (declare m step) = view m ++ (item step).toList) (m : Module)
    (steps : List Declaration) : view (steps.foldl declare m) = view m ++ steps.filterMap item := by
  induction steps generalizing m with
  | nil => simp
  | cons step steps ih =>
      rw [List.foldl_cons, ih, one]
      cases found : item step with
      | none => simp [found]
      | some a => simp [found]

theorem signals_declare (m : Module) (step : Declaration) :
    (m.declare step).signals = m.signals ++ step.signal?.toList := by
  cases step with
  | port name width direction => rfl
  | signal s => rfl
  | parameter p => exact (List.append_nil _).symm
  | part i => exact (List.append_nil _).symm
  | literal line => exact (List.append_nil _).symm

theorem ports_declare (m : Module) (step : Declaration) :
    (m.declare step).ports = m.ports ++ step.port?.toList := by
  cases step with
  | port name width direction => rfl
  | signal s => exact (List.append_nil _).symm
  | parameter p => exact (List.append_nil _).symm
  | part i => exact (List.append_nil _).symm
  | literal line => exact (List.append_nil _).symm

/-- Ports whose signals are distinct are distinct: among the signals their names stand in the same
order. -/
theorem sublist_ports_declared (steps : List Declaration) :
    ((steps.filterMap Declaration.port?).map (·.signal)).Sublist
      ((steps.filterMap Declaration.signal?).map (·.name)) := by
  induction steps with
  | nil => exact List.Sublist.slnil
  | cons step steps ih =>
      cases step with
      | port name width direction => exact ih.cons_cons name
      | signal s => exact ih.cons s.name
      | parameter p => exact ih
      | part i => exact ih
      | literal line => exact ih

theorem fitsTogether_declared {name : String} {steps : List Declaration}
    (distinct : ((steps.filterMap Declaration.signal?).map (·.name)).Nodup)
    (widths : ∀ s ∈ steps.filterMap Declaration.signal?, 1 ≤ s.width) :
    (steps.foldl declare { name }).FitsTogether := by
  have signals := foldl_declare signals Declaration.signal? signals_declare { name } steps
  have ports := foldl_declare ports Declaration.port? ports_declare { name } steps
  have order := sublist_ports_declared steps
  rw [List.nil_append] at signals ports
  rw [← signals] at distinct widths order
  rw [← ports] at order
  refine ⟨widths, distinct, distinct.sublist order, ?_⟩
  intro p mem
  obtain ⟨s, there, named⟩ := List.mem_map.mp (order.subset (List.mem_map_of_mem mem))
  exact ⟨s, there, named⟩

end Module

/-- A module has a table exactly if its declarations fit together. The table has the ports in their
order, each with the signal of its name, and in their own order the signals that no port stands for;
together these are all signals, each of them once. So a module that is put together from ports,
signals and anything else has a table if the signals, those of the ports included, have widths and
distinct names. -/
theorem module_accepted_iff_fits_together :
    (∀ m : Module, (∃ t, SignalTable.ofModule m = .ok t) ↔ m.FitsTogether) ∧
    (∀ (m : Module) (t : SignalTable), SignalTable.ofModule m = .ok t →
      t.signals = m.signals ∧
      t.ports.map (·.1) = m.ports ∧
      (∀ port ∈ t.ports, port.2 ∈ m.signals ∧ port.2.name = port.1.signal) ∧
      t.internal = m.signals.filter (·.name ∉ m.ports.map (·.signal)) ∧
      (t.ports.map (·.2) ++ t.internal).Perm m.signals ∧
      ((t.ports.map (·.2) ++ t.internal).map (·.name)).Nodup) ∧
    ∀ (name : String) (steps : List Declaration),
      ((steps.filterMap Declaration.signal?).map (·.name)).Nodup →
      (∀ s ∈ steps.filterMap Declaration.signal?, 1 ≤ s.width) →
        ∃ t, SignalTable.ofModule (steps.foldl Module.declare { name }) = .ok t := by
  refine ⟨fun m => SignalTable.exists_table_iff, ?_, ?_⟩
  · intro m t accepted
    have h := SignalTable.ofModule_eq_ok.mp accepted
    refine ⟨h.signals, h.ports, ?_, h.internal_eq, h.parts_perm, h.nodup_parts⟩
    intro port mem
    have found := h.found port mem
    exact ⟨SignalTable.mem_of_find? found, SignalTable.name_of_find? found⟩
  · intro name steps distinct widths
    exact SignalTable.exists_table_iff.mpr (Module.fitsTogether_declared distinct widths)

/-- A bus on both sides of a wire that is no port, with a parameter and a line in between. -/
def amplifierSteps : List Declaration :=
  [.port "inp" 2 .input, .parameter (.withValue "gain" (.int 10)), .signal (.scalar "mid"),
    .literal "* output stage", .port "out" 4 .output]

theorem module_accepted_iff_fits_together_amplifier :
    ∃ t, SignalTable.ofModule (amplifierSteps.foldl Module.declare { name := "amp" }) = .ok t ∧
      t.ports.map (·.1) = [⟨"inp", .input⟩, ⟨"out", .output⟩] ∧
      t.internal = [⟨"mid", 1⟩] := by
  obtain ⟨-, parts, built⟩ := module_accepted_iff_fits_together
  obtain ⟨t, accepted⟩ := built "amp" amplifierSteps (by decide) (by decide)
  obtain ⟨-, ports, -, internal, -, -⟩ := parts _ t accepted
  refine ⟨t, accepted, ports, ?_⟩
  rw [internal]
  decide

end CircuitNetlist
