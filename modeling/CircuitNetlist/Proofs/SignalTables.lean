import CircuitNetlist.Proofs.Steps
import CircuitNetlist.Signal.Table

/-!
# Which modules have a signal table

A module has a table exactly if all its signals have a width and distinct names and its ports
are distinct and refer to signals; the table is then determined by the module. Both traversals
are characterized from an arbitrary accepted start, which is what their inductions need.
-/
namespace CircuitNetlist.SignalTable

/-! ### Looking up a signal -/

theorem find?_eq_none_iff {signals : List Signal} {name : String} :
    find? signals name = none ↔ name ∉ signals.map (·.name) := by
  simp [find?]

theorem name_of_find? {signals : List Signal} {name : String} {s : Signal}
    (h : find? signals name = some s) : s.name = name := by
  simpa using List.find?_some h

theorem mem_of_find? {signals : List Signal} {name : String} {s : Signal}
    (h : find? signals name = some s) : s ∈ signals :=
  List.mem_of_find?_eq_some h

theorem get_eq_ok {t : SignalTable} {name : String} {s : Signal} :
    t.get name = .ok s ↔ find? t.signals name = some s := by
  unfold get
  cases find? t.signals name <;> simp

/-! ### Collecting signals and ports -/

theorem addSignal_eq_ok {before after : List Signal} {s : Signal} :
    addSignal before s = .ok after ↔
      ∃ new, id new = s ∧ new.width ≠ 0 ∧ new.name ∉ before.map (·.name)
        ∧ after = before ++ [new] := by
  unfold addSignal
  by_cases zero : s.width = 0
  · simp [zero, throw_ne_ok]
  · by_cases known : find? before s.name = none
    · simp only [zero, known, ↓reduceIte, Option.isSome_none, Bool.false_eq_true, pure_eq_ok, id,
        exists_eq_left, ne_eq, not_false_eq_true, find?_eq_none_iff.mp known, true_and]
      exact eq_comm
    · have mem : s.name ∈ before.map (·.name) := by
        rw [find?_eq_none_iff] at known
        exact Classical.not_not.mp known
      have some : (find? before s.name).isSome := Option.isSome_iff_ne_none.mpr known
      simp only [zero, some, mem, ↓reduceIte, throw_ne_ok, id, exists_eq_left, not_true,
        false_and, and_false]

theorem addPort_eq_ok {signals : List Signal} {before after : List (Port × Signal)} {p : Port} :
    addPort signals before p = .ok after ↔
      ∃ new : Port × Signal, new.1 = p ∧ find? signals new.1.signal = some new.2
        ∧ new.1.signal ∉ before.map (·.1.signal) ∧ after = before ++ [new] := by
  unfold addPort
  have known : before.any (·.1.signal == p.signal) = true ↔
      p.signal ∈ before.map (·.1.signal) := by
    simp
  by_cases twice : p.signal ∈ before.map (·.1.signal)
  · rw [if_pos (known.mpr twice)]
    constructor
    · intro h
      exact absurd h throw_ne_ok
    · intro h
      obtain ⟨new, rfl, -, fresh, -⟩ := h
      exact absurd twice fresh
  · rw [if_neg (mt known.mp twice)]
    cases found : find? signals p.signal with
    | none =>
        constructor
        · intro h
          exact absurd h throw_ne_ok
        · intro h
          obtain ⟨new, rfl, found', -, -⟩ := h
          rw [found] at found'
          cases found'
    | some s =>
        rw [pure_eq_ok]
        constructor
        · intro same
          exact ⟨(p, s), rfl, found, twice, same.symm⟩
        · intro h
          obtain ⟨new, rfl, found', -, rfl⟩ := h
          rw [Option.some.inj (found.symm.trans found')]

/-! ### Whole tables -/

/-- The table of a module that is in order. -/
structure Describes (t : SignalTable) (m : Module) : Prop where
  signals : t.signals = m.signals
  widths : ∀ s ∈ m.signals, s.width ≠ 0
  names : (m.signals.map (·.name)).Nodup
  ports : t.ports.map (·.1) = m.ports
  found : ∀ port ∈ t.ports, find? m.signals port.1.signal = some port.2
  distinct : (t.ports.map (·.1.signal)).Nodup
  internal : t.internal = m.signals.filter fun s => !t.ports.any (·.1.signal == s.name)

theorem ofModule_eq_ok {m : Module} {t : SignalTable} : ofModule m = .ok t ↔ t.Describes m := by
  have noSignals : (([] : List Signal).map (·.name)).Nodup := List.nodup_nil
  have noPorts : (([] : List (Port × Signal)).map (·.1.signal)).Nodup := List.nodup_nil
  simp only [ofModule, bind_eq_ok, pure_eq_ok, collect_eq_ok addSignal_eq_ok noSignals,
    collect_eq_ok addPort_eq_ok noPorts, List.nil_append, List.map_id, exists_eq_left']
  constructor
  · intro h
    obtain ⟨signals, ⟨rfl, widths, names⟩, ports, ⟨sources, found, distinct⟩, rfl⟩ := h
    exact ⟨rfl, widths, names, sources, found, distinct, rfl⟩
  · intro d
    refine ⟨m.signals, ⟨rfl, d.widths, d.names⟩, t.ports, ⟨d.ports, d.found, d.distinct⟩, ?_⟩
    rw [← d.internal, ← d.signals]

/-- The signals of the ports have the distinct names of the ports. -/
theorem Describes.portSignals {t : SignalTable} {m : Module} (h : t.Describes m) :
    (t.ports.map (·.2)).map (·.name) = t.ports.map (·.1.signal) := by
  rw [List.map_map]
  exact List.map_congr_left fun port mem => name_of_find? (h.found port mem)

end CircuitNetlist.SignalTable
