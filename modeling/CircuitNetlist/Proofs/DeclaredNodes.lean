import CircuitNetlist.Proofs.PortBindings

/-!
# Connections and declarations

The nodes of a connection are compared with the names that the declarations of its signals list
for the same bits. They agree exactly if no range of a one-bit wire is connected: such a range is
written with an index, while the wire is declared without one, so that it names no declared node.
-/
namespace CircuitNetlist

/-- All bits of a signal as a range of it. -/
def Signal.fullRange (s : Signal) : Slice :=
  { signal := s.name, top := s.width - 1, bottom := 0 }

/-- The bit lies within one of the signals, and its name is among those of the signal's
declaration. -/
structure Bit.Declared (d : Dialect) (signals : List Signal) (b : Bit) : Prop where
  signal : b.signal ∈ signals
  index : b.index < b.signal.width.toNat
  listed : b.node d ∈ b.signal.bits d

namespace Target.Reads
variable {d : Dialect} {signals : List Signal} {leaves : List Leaf} {texts : List String}

theorem joined_iff (h : Reads d signals leaves texts) (expands : d.family ≠ .verilog) :
    joinWords texts = joinWords ((leaves.flatMap (Leaf.bits signals)).map (Bit.node d)) ↔
      leaves.any (Leaf.slicesWire signals) = false := by
  rw [h.joined]
  exact joinWords_nodes_iff expands h.fits

theorem declared (h : Reads d signals leaves texts) {b : Bit}
    (mem : b ∈ leaves.flatMap (Leaf.bits signals)) : b.Declared d signals := by
  obtain ⟨leaf, here, mem⟩ := List.mem_flatMap.mp mem
  have both := (h.fits leaf here).mem_bits mem
  exact ⟨both.1, both.2, Bit.node_mem both.2⟩

end Target.Reads

theorem Signal.leaf_fullRange {signals : List Signal} {s : Signal}
    (found : SignalTable.find? signals s.name = some s) (wide : s.width ≠ 0) :
    (Leaf.range s.fullRange).Fits signals ∧
      (Leaf.range s.fullRange).bits signals = s.allBits ∧
      (Leaf.range s.fullRange).slicesWire signals = (s.width == 1) := by
  have bound := s.width.toNat_lt
  have one : (1 : UInt64).toNat = 1 := rfl
  rw [ne_eq, ← UInt64.toNat_inj] at wide
  have pos : (1 : UInt64).toNat ≤ s.width.toNat := Nat.pos_of_ne_zero wide
  have top : (s.width - 1).toNat = s.width.toNat - 1 := by
    rw [UInt64.toNat_sub_of_le _ _ (UInt64.le_iff_toNat_le.mpr pos), one]
  refine ⟨⟨s, found, ?_, ?_⟩, ?_, ?_⟩
  · exact UInt64.le_iff_toNat_le.mpr (Nat.zero_le _)
  · rw [UInt64.lt_iff_toNat_lt]
    change (s.width - 1).toNat < s.width.toNat
    omega
  · have zero : (0 : UInt64).toNat = 0 := rfl
    have back : s.width.toNat - 1 + 1 = s.width.toNat := by omega
    simp only [Leaf.bits, fullRange, found, Option.toList_some, List.flatMap_singleton, allBits,
      downTo, top, zero, back, Nat.sub_zero, List.range_eq_range']
  · simp [Leaf.slicesWire, fullRange, found]

/-- A full range of a signal is written like the signal exactly if the signal is a bus. -/
theorem Signal.textIn_fullRange_iff {d : Dialect} {t : SignalTable} {s : Signal}
    (expands : d.family ≠ .verilog) (widths : ∀ s ∈ t.signals, s.width ≠ 0)
    (found : SignalTable.find? t.signals s.name = some s) :
    (Target.slice s.fullRange).textIn d t = (Target.signal s.name).textIn d t ↔ s.width ≠ 1 := by
  obtain ⟨fits, bits, sliced⟩ := leaf_fullRange found (widths s (SignalTable.mem_of_find? found))
  have range : (Target.slice s.fullRange).textIn d t = .ok (joinWords (s.fullRange.bits d)) := by
    have checked : t.checkSlice s.fullRange = .ok () := Target.checkSlice_eq_ok.mpr fits
    simp only [Target.textIn, checked, Target.sliceText_eq expands]
    rfl
  have whole :
      (Target.signal s.name).textIn d t = .ok (joinWords (s.allBits.map (Bit.node d))) := by
    simp only [Target.textIn, SignalTable.get_eq_ok.mpr found, Target.signalText_eq expands,
      Signal.bits_eq]
    rfl
  have same := Target.joinWords_nodes_iff expands (d := d) (List.forall_mem_singleton.mpr fits)
  simp only [List.flatMap_singleton, bits, List.any_cons, List.any_nil, Bool.or_false, sliced,
    Leaf.nodes] at same
  rw [range, whole, Except.ok.injEq, same, beq_eq_false_iff_ne]

/-- Text and declarations agree bit for bit, for a target, for the line of nodes of an instance
and for a full range of a signal, exactly where no range of a one-bit wire is written. -/
theorem connection_text_declared_iff {d : Dialect} {m : Module} {t : SignalTable}
    (accepted : SignalTable.ofModule m = .ok t) (expands : d.family ≠ .verilog) :
    (∀ target text, Target.textIn d t target = .ok text →
      (text = joinWords ((target.bits m.signals).map (Bit.node d)) ↔
        target.slicesWire m.signals = false) ∧
      ∀ b ∈ target.bits m.signals, b.Declared d m.signals) ∧
    (∀ target connections bindings, bindPorts d t target connections = .ok bindings →
      let targets := boundTargets target.ports connections
      (joinWords (bindings.map (·.text))
          = joinWords ((targets.flatMap (Target.bits m.signals)).map (Bit.node d)) ↔
        ∀ bound ∈ targets, bound.slicesWire m.signals = false) ∧
      ∀ b ∈ targets.flatMap (Target.bits m.signals), b.Declared d m.signals) ∧
    ∀ s ∈ m.signals,
      (Target.slice s.fullRange).textIn d t = (Target.signal s.name).textIn d t ↔
        s.width ≠ 1 := by
  have h := SignalTable.ofModule_eq_ok.mp accepted
  have widths : ∀ s ∈ t.signals, s.width ≠ 0 := h.signals ▸ h.widths
  rw [← h.signals]
  refine ⟨?_, ?_, ?_⟩
  · intro target text written
    have reads := Target.reads_of_textIn expands widths written
    have agree := reads.joined_iff expands
    rw [show joinWords [text] = text by simp [joinWords]] at agree
    exact ⟨agree, fun b mem => reads.declared mem⟩
  · intro target connections bindings written
    have reads := reads_of_bound expands widths (bindPorts_eq_ok.mp written).bound
    have agree := reads.joined_iff expands
    have bits : (boundTargets target.ports connections).flatMap (Target.bits t.signals)
        = ((boundTargets target.ports connections).flatMap Target.leaves).flatMap
            (Leaf.bits t.signals) := by
      rw [List.flatMap_assoc]
      rfl
    rw [List.any_flatMap, List.any_eq_false] at agree
    simp only [bits]
    refine ⟨?_, fun b mem => reads.declared mem⟩
    simpa only [Target.slicesWire, Bool.not_eq_true] using agree
  · intro s mem
    have found : SignalTable.find? t.signals s.name = some s :=
      find?_of_nodup (h.signals ▸ h.names) mem
    exact Signal.textIn_fullRange_iff expands widths found

/-- A module with a bus and a wire. -/
def busAndWire : Module :=
  { name := "m", signals := [{ name := "a", width := 4 }, { name := "b", width := 1 }] }

/-- The wire in front of two bits of the bus is written with declared names. -/
theorem connection_text_declared_bus :
    ∃ t, SignalTable.ofModule busAndWire = .ok t ∧
      (Target.concat [.signal "b", .slice ⟨"a", 2, 1⟩]).textIn .ngspice t = .ok "b a_2 a_1" ∧
      "b a_2 a_1" = joinWords
        (((Target.concat [.signal "b", .slice ⟨"a", 2, 1⟩]).bits busAndWire.signals).map
          (Bit.node .ngspice)) := by
  have accepted : SignalTable.ofModule busAndWire
      = .ok ⟨busAndWire.signals, [], busAndWire.signals⟩ := rfl
  have written : (Target.concat [.signal "b", .slice ⟨"a", 2, 1⟩]).textIn .ngspice
      ⟨busAndWire.signals, [], busAndWire.signals⟩ = .ok "b a_2 a_1" := rfl
  have agree := (connection_text_declared_iff accepted (d := .ngspice) (by decide)).1 _ _ written
  exact ⟨_, accepted, written, agree.1.mpr rfl⟩

/-- The only bit of the wire, taken as a range, is written with an index that its declaration
does not have. -/
theorem connection_text_undeclared_wire :
    ∃ t, SignalTable.ofModule busAndWire = .ok t ∧
      (Target.slice ⟨"b", 0, 0⟩).textIn .spice t = .ok "b_0" ∧
      (Target.signal "b").textIn .spice t = .ok "b" ∧
      joinWords (((Target.slice ⟨"b", 0, 0⟩).bits busAndWire.signals).map (Bit.node .spice))
        = "b" ∧
      ∀ s ∈ busAndWire.signals, "b_0" ∉ s.bits .spice := by
  refine ⟨⟨busAndWire.signals, [], busAndWire.signals⟩, rfl, rfl, rfl, rfl, ?_⟩
  decide

end CircuitNetlist
