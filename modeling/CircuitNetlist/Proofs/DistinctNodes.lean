import Mathlib.Data.Set.Operations
import CircuitNetlist.Proofs.PositionalNodes

/-!
# Distinct node names

The bits of a module are named apart as far as the names of its signals allow. Two buses never share
a node, as the last underscore of a node divides it into a name and an index, and two wires have
names of their own. What is not looked at is whether a wire has the name of a bit of a bus: these
two, and no others, are written as one node.
-/
namespace CircuitNetlist

/-! ### Names with an index -/

/-- What stands in front of the last of some marks, and what behind it, is determined by the
whole. -/
theorem append_cons_inj_of_last {α : Type} {mark : α} {xs ys xs' ys' : List α} (last : mark ∉ ys)
    (last' : mark ∉ ys') (same : xs ++ mark :: ys = xs' ++ mark :: ys') : xs = xs' ∧ ys = ys' := by
  rcases List.append_eq_append_iff.mp same with ⟨more, rfl, rest⟩ | ⟨more, rfl, rest⟩
  · cases more with
    | nil => exact ⟨(List.append_nil xs).symm, (List.cons.inj rest).2⟩
    | cons first more =>
        obtain ⟨-, rfl⟩ := List.cons.inj rest
        exact absurd (List.mem_append_right more List.mem_cons_self) last
  · cases more with
    | nil => exact ⟨List.append_nil xs', (List.cons.inj rest).2.symm⟩
    | cons first more =>
        obtain ⟨-, rfl⟩ := List.cons.inj rest
        exact absurd (List.mem_append_right more List.mem_cons_self) last'

theorem underscore_index_inj {name name' : String} {i j : Nat}
    (same : name ++ "_" ++ toString i = name' ++ "_" ++ toString j) : name = name' ∧ i = j := by
  have texts := congrArg String.toList same
  simp only [Nat.toString_eq_ofList_toDigits, String.toList_append, String.toList_ofList,
    List.append_assoc] at texts
  obtain ⟨names, digits⟩ := append_cons_inj_of_last Nat.underscore_not_in_toDigits
    Nat.underscore_not_in_toDigits texts
  have numbers := congrArg (fun digits => Nat.ofDigitChars 10 digits 0) digits
  simp only [Nat.ofDigitChars_ten_toDigits] at numbers
  exact ⟨String.toList_inj.mp names, numbers⟩

/-! ### Bits that are written alike -/

/-- The bit is one of the bits of the signals. -/
structure Bit.Of (signals : List Signal) (b : Bit) : Prop where
  signal : b.signal ∈ signals
  index : b.index < b.signal.width.toNat

/-- The first bit is a wire whose name is that of the second one, which is a bit of a bus. -/
structure Bit.Shadows (b c : Bit) : Prop where
  wire : b.signal.width = 1
  bus : c.signal.width ≠ 1
  named : b.signal.name = c.signal.name ++ "_" ++ toString c.index

/-- A wire that is named like a bit of a bus. -/
def Signal.Shadows (wire bus : Signal) : Prop :=
  ∃ i < bus.width.toNat, Bit.Shadows ⟨wire, 0⟩ ⟨bus, i⟩

instance (b c : Bit) : Decidable (b.Shadows c) :=
  decidable_of_iff (b.signal.width = 1 ∧ c.signal.width ≠ 1
      ∧ b.signal.name = c.signal.name ++ "_" ++ toString c.index)
    ⟨fun h => ⟨h.1, h.2.1, h.2.2⟩, fun h => ⟨h.wire, h.bus, h.named⟩⟩

instance (wire bus : Signal) : Decidable (wire.Shadows bus) :=
  inferInstanceAs (Decidable (∃ i < bus.width.toNat, Bit.Shadows ⟨wire, 0⟩ ⟨bus, i⟩))

section Bits
variable {d : Dialect} {signals : List Signal} {b c : Bit}

/-- A node belongs to one bit, or to a wire and the bit of a bus that the wire is named like. -/
theorem Bit.node_eq_iff (names : (signals.map (·.name)).Nodup) (expands : d.family ≠ .verilog)
    (hb : b.Of signals) (hc : c.Of signals) :
    b.node d = c.node d ↔ b = c ∨ b.Shadows c ∨ c.Shadows b := by
  have signal_eq : b.signal.name = c.signal.name → b.signal = c.signal :=
    fun same => List.inj_on_of_nodup_map names hb.signal hc.signal same
  rw [Bit.node_eq hb.index, Bit.node_eq hc.index]
  simp only [Dialect.busBit_eq expands]
  obtain ⟨s, i⟩ := b
  obtain ⟨s', j⟩ := c
  have inside : i < s.width.toNat := hb.index
  have inside' : j < s'.width.toNat := hc.index
  by_cases one : s.width = 1 <;> by_cases one' : s'.width = 1
  · -- two wires, each with its only bit
    simp only [one, one', ↓reduceIte]
    constructor
    · intro same
      obtain rfl : s = s' := signal_eq same
      rw [one] at inside inside'
      exact .inl (by rw [Nat.lt_one_iff.mp inside, Nat.lt_one_iff.mp inside'])
    · rintro (same | shadow | shadow)
      · rw [(Bit.mk.inj same).1]
      · exact absurd one' shadow.bus
      · exact absurd one shadow.bus
  · simp only [one, one', ↓reduceIte]
    constructor
    · intro named
      exact .inr (.inl ⟨one, one', named⟩)
    · rintro (same | shadow | shadow)
      · exact absurd ((Bit.mk.inj same).1 ▸ one) one'
      · exact shadow.named
      · exact absurd shadow.wire one'
  · simp only [one, one', ↓reduceIte]
    constructor
    · intro named
      exact .inr (.inr ⟨one', one, named.symm⟩)
    · rintro (same | shadow | shadow)
      · exact absurd ((Bit.mk.inj same).1 ▸ one') one
      · exact absurd shadow.wire one
      · exact shadow.named.symm
  · -- two buses: the node tells the name and the index
    simp only [one, one', ↓reduceIte]
    constructor
    · intro same
      obtain ⟨named, rfl⟩ := underscore_index_inj same
      obtain rfl : s = s' := signal_eq named
      exact .inl rfl
    · rintro (same | shadow | shadow)
      · obtain ⟨rfl, rfl⟩ := Bit.mk.inj same
        rfl
      · exact absurd shadow.wire one
      · exact absurd shadow.wire one'

/-- Bits are named apart exactly if no wire is named like a bit of a bus. -/
theorem injOn_node_iff (names : (signals.map (·.name)).Nodup) (expands : d.family ≠ .verilog) :
    Set.InjOn (Bit.node d) {b | b.Of signals} ↔
      ∀ wire ∈ signals, ∀ bus ∈ signals, ¬ wire.Shadows bus := by
  constructor
  · intro apart wire mem bus mem' shadowed
    obtain ⟨i, inside, shadow⟩ := shadowed
    have first : Bit.Of signals ⟨wire, 0⟩ := by
      refine ⟨mem, ?_⟩
      rw [shadow.wire]
      exact Nat.one_pos
    have same := (Bit.node_eq_iff names expands first ⟨mem', inside⟩).mpr (.inr (.inl shadow))
    obtain ⟨rfl, -⟩ := Bit.mk.inj (apart first ⟨mem', inside⟩ same)
    exact shadow.bus shadow.wire
  · intro spared b hb c hc same
    have shadowed : ∀ {b c : Bit}, b.Of signals → c.Of signals → ¬ b.Shadows c := by
      intro b c hb hc shadow
      exact spared b.signal hb.signal c.signal hc.signal
        ⟨c.index, hc.index, shadow.wire, shadow.bus, shadow.named⟩
    rcases (Bit.node_eq_iff names expands hb hc).mp same with same | shadow | shadow
    · exact same
    · exact absurd shadow (shadowed hb hc)
    · exact absurd shadow (shadowed hc hb)

theorem mem_flatMap_allBits : b ∈ signals.flatMap Signal.allBits ↔ b.Of signals := by
  simp only [List.mem_flatMap, Signal.allBits, List.mem_map, List.mem_reverse, List.mem_range]
  constructor
  · rintro ⟨s, mem, i, inside, rfl⟩
    exact ⟨mem, inside⟩
  · intro h
    exact ⟨b.signal, h.signal, b.index, h.index, rfl⟩

/-- No bit occurs twice among the bits of different signals. -/
theorem nodup_flatMap_allBits (distinct : signals.Nodup) :
    (signals.flatMap Signal.allBits).Nodup := by
  rw [List.nodup_flatMap]
  refine ⟨?_, ?_⟩
  · intro s _
    exact (List.nodup_reverse.mpr List.nodup_range).map fun i j same => (Bit.mk.inj same).2
  · apply distinct.imp
    intro s s' differ b mem mem'
    obtain ⟨i, -, rfl⟩ := List.mem_map.mp mem
    obtain ⟨j, -, same⟩ := List.mem_map.mp mem'
    exact differ (Bit.mk.inj same).1.symm

/-- So a list of the nodes of some signals repeats one exactly if a wire among them is named like a
bit of a bus among them. -/
theorem nodup_flatMap_bits_iff (names : (signals.map (·.name)).Nodup)
    (expands : d.family ≠ .verilog) :
    (signals.flatMap (Signal.bits d)).Nodup ↔
      ∀ wire ∈ signals, ∀ bus ∈ signals, ¬ wire.Shadows bus := by
  have nodes : signals.flatMap (Signal.bits d)
      = (signals.flatMap Signal.allBits).map (Bit.node d) := by
    rw [List.map_flatMap]
    exact List.flatMap_congr fun s _ => s.bits_eq d
  rw [nodes, List.nodup_map_iff_inj_on (nodup_flatMap_allBits names.of_map),
    ← injOn_node_iff names expands]
  simp only [mem_flatMap_allBits]
  rfl

end Bits

/-- In a module that has a table, two bits are written as one node exactly if one is a wire that is
named like the other one, a bit of a bus. All nodes of the module, and those on the line of its
ports, are distinct exactly if there is no such wire among its signals, and among its ports. -/
theorem node_names_distinct_iff {d : Dialect} {m : Module} {t : SignalTable}
    (accepted : SignalTable.ofModule m = .ok t) (expands : d.family ≠ .verilog) :
    (∀ b c : Bit, b.Of m.signals → c.Of m.signals →
      (b.node d = c.node d ↔ b = c ∨ b.Shadows c ∨ c.Shadows b)) ∧
    (Set.InjOn (Bit.node d) {b | b.Of m.signals} ↔
      ∀ wire ∈ m.signals, ∀ bus ∈ m.signals, ¬ wire.Shadows bus) ∧
    ((t.portNodes d).flatten.Nodup ↔
      ∀ wire ∈ t.ports, ∀ bus ∈ t.ports, ¬ wire.2.Shadows bus.2) := by
  have h := SignalTable.ofModule_eq_ok.mp accepted
  refine ⟨?_, injOn_node_iff h.names expands, ?_⟩
  · intro b c hb hc
    exact Bit.node_eq_iff h.names expands hb hc
  · have names : ((t.ports.map (·.2)).map (·.name)).Nodup := h.portSignals ▸ h.distinct
    have line : (t.portNodes d).flatten = (t.ports.map (·.2)).flatMap (Signal.bits d) := by
      rw [SignalTable.portNodes, ← List.flatMap_def, List.flatMap_map]
    rw [line, nodup_flatMap_bits_iff names expands]
    simp only [List.forall_mem_map]

/-- A module with a bus of two bits and a wire, both of them ports. -/
def busBeside (wire : String) : Module :=
  (({ name := "m" } : Module).withBusPort "a" 2 .inout).withPort wire .inout

/-- A wire that is not named like a bit of the bus has a node of its own. -/
theorem node_names_distinct_wire :
    ∃ t, SignalTable.ofModule (busBeside "a_2") = .ok t ∧
      Set.InjOn (Bit.node .spectre) {b | b.Of (busBeside "a_2").signals} ∧
      (t.portNodes .spectre).flatten = ["a_1", "a_0", "a_2"] := by
  have accepted : SignalTable.ofModule (busBeside "a_2") = .ok _ := rfl
  obtain ⟨-, apart, -⟩ := node_names_distinct_iff accepted (d := .spectre) (by decide)
  exact ⟨_, accepted, apart.mpr (by decide), rfl⟩

/-- The wire that is named like a bit of the bus is written as one node with it. -/
theorem node_names_distinct_shadowed :
    ∃ t, SignalTable.ofModule (busBeside "a_1") = .ok t ∧
      Bit.node .spice ⟨⟨"a", 2⟩, 1⟩ = Bit.node .spice ⟨⟨"a_1", 1⟩, 0⟩ ∧
      t.portList .spice = "a_1 a_0 a_1" ∧
      ∃ scope, (Package.script .spice {} .empty { modules := [busBeside "a_1"] }).result
        = .ok scope := by
  exact ⟨_, rfl, by decide, by decide, _, rfl⟩

end CircuitNetlist
