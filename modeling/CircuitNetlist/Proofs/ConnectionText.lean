import CircuitNetlist.Proofs.NodeNames

/-!
# The text of connections

The text of an accepted target is the join of the nodes of its leaves, in order. It is the join of
the declared names of the same bits exactly if no leaf is a range of a one-bit wire: such a leaf
has two letters more than the declaration, and nothing written elsewhere can make up for it.
-/
namespace CircuitNetlist

/-! ### Leaves -/

namespace Leaf
variable {d : Dialect} {signals : List Signal} {leaf : Leaf}

/-- A leaf that fits is written with one node for each of its bits. -/
theorem Fits.length_nodes (fits : leaf.Fits signals) :
    (leaf.nodes d signals).length = (leaf.bits signals).length := by
  cases leaf with
  | whole name =>
      obtain ⟨s, found⟩ := fits
      simp [nodes, bits, found, Signal.allBits]
  | range r =>
      obtain ⟨s, found, -, -⟩ := fits
      simp [nodes, bits, found, Slice.bits]

theorem Fits.bits_ne_nil (fits : leaf.Fits signals) (widths : ∀ s ∈ signals, s.width ≠ 0) :
    leaf.bits signals ≠ [] := by
  apply List.ne_nil_of_length_pos
  cases leaf with
  | whole name =>
      obtain ⟨s, found⟩ := fits
      have wide := widths s (SignalTable.mem_of_find? found)
      rw [ne_eq, ← UInt64.toNat_inj] at wide
      have zero : (0 : UInt64).toNat = 0 := rfl
      simp only [bits, found, Option.toList_some, List.flatMap_singleton, Signal.allBits,
        List.length_map, List.length_reverse, List.length_range]
      omega
  | range r =>
      obtain ⟨s, found, order, -⟩ := fits
      rw [UInt64.le_iff_toNat_le] at order
      simp only [bits, found, Option.toList_some, List.flatMap_singleton, List.length_map,
        length_downTo]
      omega

/-- A leaf that fits denotes bits of declared signals only. -/
theorem Fits.mem_bits (fits : leaf.Fits signals) {b : Bit} (mem : b ∈ leaf.bits signals) :
    b.signal ∈ signals ∧ b.index < b.signal.width.toNat := by
  cases leaf with
  | whole name =>
      obtain ⟨s, found⟩ := fits
      simp only [bits, found, Option.toList_some, List.flatMap_singleton, Signal.allBits,
        List.mem_map, List.mem_reverse, List.mem_range] at mem
      obtain ⟨i, inside, rfl⟩ := mem
      exact ⟨SignalTable.mem_of_find? found, inside⟩
  | range r =>
      obtain ⟨s, found, -, below⟩ := fits
      rw [UInt64.lt_iff_toNat_lt] at below
      simp only [bits, found, Option.toList_some, List.flatMap_singleton, List.mem_map,
        mem_downTo] at mem
      obtain ⟨i, ⟨-, upper⟩, rfl⟩ := mem
      exact ⟨SignalTable.mem_of_find? found, Nat.lt_of_le_of_lt upper below⟩

/-- Everything but a range of a wire is written with declared names. -/
theorem Fits.nodes_eq (fits : leaf.Fits signals) (spared : leaf.slicesWire signals = false) :
    leaf.nodes d signals = (leaf.bits signals).map (Bit.node d) := by
  cases leaf with
  | whole name =>
      obtain ⟨s, found⟩ := fits
      simp [nodes, bits, found, Signal.bits_eq]
  | range r =>
      obtain ⟨s, found, -, below⟩ := fits
      rw [UInt64.lt_iff_toNat_lt] at below
      have bus : s.width ≠ 1 := by simpa [slicesWire, found] using spared
      have named : ∀ i ∈ downTo r.top.toNat r.bottom.toNat,
          d.busBit r.signal i = Bit.node d ⟨s, i⟩ := by
        intro i mem
        have inside := Nat.lt_of_le_of_lt (mem_downTo.mp mem).2 below
        rw [Bit.node_eq (b := ⟨s, i⟩) inside, if_neg bus, SignalTable.name_of_find? found]
      simp only [nodes, bits, found, Slice.bits, Option.toList_some, List.flatMap_singleton,
        List.map_map]
      exact List.map_congr_left named

/-- A range of a wire adds an underscore and a zero to the declared name. -/
theorem Fits.letters_nodes (fits : leaf.Fits signals) (expands : d.family ≠ .verilog) :
    letters (leaf.nodes d signals) = letters ((leaf.bits signals).map (Bit.node d))
      + if leaf.slicesWire signals then 2 else 0 := by
  cases sliced : leaf.slicesWire signals with
  | false => simp [fits.nodes_eq sliced]
  | true =>
      cases leaf with
      | whole name => cases sliced
      | range r =>
          obtain ⟨s, found, order, below⟩ := fits
          have one : s.width = 1 := by simpa [slicesWire, found] using sliced
          rw [one, UInt64.lt_iff_toNat_lt] at below
          rw [UInt64.le_iff_toNat_le] at order
          have top : r.top.toNat = 0 := Nat.lt_one_iff.mp below
          have bottom : r.bottom.toNat = 0 := by omega
          have written : (range r).nodes d signals = [s.name ++ "_" ++ toString 0] := by
            simp [nodes, Slice.bits, top, bottom, downTo, Dialect.busBit_eq expands,
              SignalTable.name_of_find? found]
          have declared : ((range r).bits signals).map (Bit.node d) = [s.name] := by
            simp [bits, found, top, bottom, downTo, Bit.node_eq (b := ⟨s, 0⟩), one]
          have digit : (toString 0).length = 1 := rfl
          have underscore : "_".length = 1 := rfl
          rw [written, declared, if_pos rfl]
          simp only [letters, String.length_append, digit, underscore]

end Leaf

/-! ### Targets -/

namespace Target
variable {d : Dialect} {signals : List Signal}

theorem length_nodes {leaves : List Leaf} (fits : ∀ leaf ∈ leaves, leaf.Fits signals) :
    (leaves.flatMap (Leaf.nodes d signals)).length
      = (leaves.flatMap (Leaf.bits signals)).length := by
  rw [List.length_flatMap, List.length_flatMap]
  congr 1
  exact List.map_congr_left fun leaf mem => (fits leaf mem).length_nodes

/-- Every range of a wire makes the whole two letters longer. -/
theorem letters_nodes {leaves : List Leaf} (expands : d.family ≠ .verilog)
    (fits : ∀ leaf ∈ leaves, leaf.Fits signals) :
    letters (leaves.flatMap (Leaf.nodes d signals))
      = letters ((leaves.flatMap (Leaf.bits signals)).map (Bit.node d))
        + 2 * leaves.countP (Leaf.slicesWire signals) := by
  induction leaves with
  | nil => rfl
  | cons leaf leaves ih =>
      have both := List.forall_mem_cons.mp fits
      have first := both.1.letters_nodes expands
      have rest := ih both.2
      rw [List.flatMap_cons, List.flatMap_cons, List.map_append, letters_append, letters_append,
        List.countP_cons, first, rest]
      split <;> omega

theorem nodes_eq {leaves : List Leaf} (fits : ∀ leaf ∈ leaves, leaf.Fits signals)
    (spared : leaves.any (Leaf.slicesWire signals) = false) :
    leaves.flatMap (Leaf.nodes d signals)
      = (leaves.flatMap (Leaf.bits signals)).map (Bit.node d) := by
  rw [List.map_flatMap, List.flatMap, List.flatMap]
  congr 1
  refine List.map_congr_left fun leaf mem => (fits leaf mem).nodes_eq ?_
  simpa using List.any_eq_false.mp spared leaf mem

/-- The written nodes are the declared names exactly if no leaf is a range of a wire. -/
theorem joinWords_nodes_iff {leaves : List Leaf} (expands : d.family ≠ .verilog)
    (fits : ∀ leaf ∈ leaves, leaf.Fits signals) :
    joinWords (leaves.flatMap (Leaf.nodes d signals))
        = joinWords ((leaves.flatMap (Leaf.bits signals)).map (Bit.node d)) ↔
      leaves.any (Leaf.slicesWire signals) = false := by
  constructor
  · intro same
    -- equally many names, so two equal texts have equally many letters
    have total := congrArg String.length same
    rw [length_joinWords, length_joinWords, List.length_map, length_nodes fits,
      letters_nodes expands fits] at total
    have none : leaves.countP (Leaf.slicesWire signals) = 0 := by omega
    rw [List.countP_eq_zero] at none
    exact List.any_eq_false.mpr none
  · intro spared
    rw [nodes_eq fits spared]

/-! ### Texts -/

theorem signalText_eq (expands : d.family ≠ .verilog) (s : Signal) :
    signalText d s = joinWords (s.bits d) := by
  unfold signalText
  cases h : d.family with
  | verilog => exact absurd h expands
  | spice => rfl
  | spectre => rfl

theorem sliceText_eq (expands : d.family ≠ .verilog) (r : Slice) :
    sliceText d r = joinWords (r.bits d) := by
  unfold sliceText
  cases h : d.family with
  | verilog => exact absurd h expands
  | spice => rfl
  | spectre => rfl

theorem concatText_eq (expands : d.family ≠ .verilog) (texts : List String) :
    concatText d texts = joinWords texts := by
  unfold concatText
  cases h : d.family with
  | verilog => exact absurd h expands
  | spice => rfl
  | spectre => rfl

theorem checkSlice_eq_ok {t : SignalTable} {r : Slice} {u : Unit} :
    t.checkSlice r = .ok u ↔ (Leaf.range r).Fits t.signals := by
  simp only [SignalTable.checkSlice, bind_eq_ok, SignalTable.get_eq_ok, Leaf.Fits]
  refine exists_congr fun s => and_congr_right fun _ => ?_
  by_cases empty : r.top < r.bottom
  · simp [empty, throw_bind_ne_ok, UInt64.not_le.mpr empty]
  · by_cases outside : s.width ≤ r.top
    · simp [empty, outside, throw_ne_ok, UInt64.not_lt.mpr outside]
    · simp [empty, outside, pure_eq_ok, UInt64.not_lt.mp empty, UInt64.not_le.mp outside]

theorem nodes_ne_nil {leaves : List Leaf} (widths : ∀ s ∈ signals, s.width ≠ 0)
    (fits : ∀ leaf ∈ leaves, leaf.Fits signals) (some : leaves ≠ []) :
    leaves.flatMap (Leaf.nodes d signals) ≠ [] := by
  cases leaves with
  | nil => exact absurd rfl some
  | cons leaf leaves =>
      have first := (fits leaf List.mem_cons_self).bits_ne_nil widths
      rw [← List.length_pos_iff] at first ⊢
      rw [length_nodes fits, List.flatMap_cons, List.length_append]
      omega

/-- What is known of the texts of some parts: all leaves fit, and the texts are their nodes. A
part has a leaf, so that no blank of the join stands beside an empty word. -/
structure Reads (d : Dialect) (signals : List Signal) (leaves : List Leaf)
    (texts : List String) : Prop where
  fits : ∀ leaf ∈ leaves, leaf.Fits signals
  empty : leaves = [] ↔ texts = []
  joined : joinWords texts = joinWords (leaves.flatMap (Leaf.nodes d signals))

theorem Reads.append {front rest : List Leaf} {text : String} {texts : List String}
    (widths : ∀ s ∈ signals, s.width ≠ 0) (first : Reads d signals front [text])
    (others : Reads d signals rest texts) : Reads d signals (front ++ rest) (text :: texts) := by
  have some : front ≠ [] := mt first.empty.mp (by simp)
  refine ⟨?_, by simp [some], ?_⟩
  · intro leaf mem
    rcases List.mem_append.mp mem with here | there
    · exact first.fits leaf here
    · exact others.fits leaf there
  · cases texts with
    | nil =>
        have none : rest = [] := others.empty.mpr rfl
        rw [none, List.append_nil, first.joined]
    | cons next texts =>
        have more : rest ≠ [] := mt others.empty.mp (by simp)
        have nodes := nodes_ne_nil (d := d) widths first.fits some
        have nodes' := nodes_ne_nil (d := d) widths others.fits more
        rw [List.flatMap_append, joinWords_append nodes nodes', ← first.joined, ← others.joined,
          ← joinWords_append (by simp) (by simp), List.singleton_append]

mutual

/-- An accepted target reads as its leaves. -/
theorem reads_of_textIn {t : SignalTable} (expands : d.family ≠ .verilog)
    (widths : ∀ s ∈ t.signals, s.width ≠ 0) : ∀ {target : Target} {text : String},
      target.textIn d t = .ok text → Reads d t.signals target.leaves [text]
  | .signal name, text, h => by
      simp only [textIn, bind_eq_ok, pure_eq_ok, SignalTable.get_eq_ok] at h
      obtain ⟨s, found, rfl⟩ := h
      refine ⟨?_, by simp [leaves], ?_⟩
      · simpa [leaves, Leaf.Fits] using ⟨s, found⟩
      · simp [leaves, Leaf.nodes, found, signalText_eq expands, joinWords]
  | .slice r, text, h => by
      simp only [textIn, bind_eq_ok, pure_eq_ok, checkSlice_eq_ok] at h
      obtain ⟨-, fits, rfl⟩ := h
      refine ⟨by simpa [leaves] using fits, by simp [leaves], ?_⟩
      simp [leaves, Leaf.nodes, sliceText_eq expands, joinWords]
  | .concat [], text, h => by
      simp only [textIn] at h
      exact absurd h throw_ne_ok
  | .concat (part :: parts), text, h => by
      simp only [textIn, bind_eq_ok, pure_eq_ok] at h
      obtain ⟨first, one, others, rest, rfl⟩ := h
      have whole := (reads_of_textIn expands widths one).append widths
        (reads_of_textsIn expands widths rest)
      rw [concatText_eq expands, leaves, leavesOfAll]
      refine ⟨whole.fits, ?_, ?_⟩
      · rw [whole.empty]
        simp
      · rw [← whole.joined]
        simp [joinWords]

theorem reads_of_textsIn {t : SignalTable} (expands : d.family ≠ .verilog)
    (widths : ∀ s ∈ t.signals, s.width ≠ 0) : ∀ {parts : List Target} {texts : List String},
      textsIn d t parts = .ok texts → Reads d t.signals (leavesOfAll parts) texts
  | [], texts, h => by
      simp only [textsIn, pure_eq_ok] at h
      subst h
      exact ⟨by simp [leavesOfAll], by simp [leavesOfAll], by simp [leavesOfAll]⟩
  | part :: parts, texts, h => by
      simp only [textsIn, bind_eq_ok, pure_eq_ok] at h
      obtain ⟨first, one, others, rest, rfl⟩ := h
      rw [leavesOfAll]
      exact (reads_of_textIn expands widths one).append widths
        (reads_of_textsIn expands widths rest)

end

end Target

end CircuitNetlist
