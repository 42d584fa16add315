import CircuitNetlist.Proofs.SignalTables
import CircuitNetlist.Signal.Binding

/-!
# Node names of connections

A target is a tree of concatenations over whole signals and ranges of signals; what it denotes
is the bits of its leaves from left to right. A bit has one name, the one its signal's declaration
gives it. The nodes that are written for a leaf are a matter of their own: a range is written
with indices, whatever the declaration of its signal looks like.
-/
namespace CircuitNetlist

/-! ### Words -/

theorem joinWords_append {ws vs : List String} (hw : ws ≠ []) (hv : vs ≠ []) :
    joinWords (ws ++ vs) = joinWords ws ++ " " ++ joinWords vs :=
  String.intercalate_append_of_ne_nil hw hv

/-- The letters of some words, without the blanks between them. -/
def letters : List String → Nat
  | [] => 0
  | w :: ws => w.length + letters ws

@[simp] theorem letters_append (ws vs : List String) :
    letters (ws ++ vs) = letters ws + letters vs := by
  induction ws with
  | nil => simp [letters]
  | cons w ws ih =>
      rw [List.cons_append, letters, letters, ih]
      omega

theorem length_joinWords (words : List String) :
    (joinWords words).length = letters words + (words.length - 1) := by
  induction words with
  | nil => rfl
  | cons w ws ih =>
      cases ws with
      | nil => simp [joinWords, letters]
      | cons v ws =>
          have split : joinWords (w :: v :: ws) = w ++ " " ++ joinWords (v :: ws) :=
            String.intercalate_cons_cons
          have blank : " ".length = 1 := rfl
          rw [split, String.length_append, String.length_append, ih, blank]
          simp only [letters, List.length_cons]
          omega

/-! ### Bits and their names -/

/-- One bit of a signal. -/
structure Bit where
  signal : Signal
  index : Nat
deriving DecidableEq, Repr

/-- The bits of a signal, the highest first. -/
def Signal.allBits (s : Signal) : List Bit :=
  (List.range s.width.toNat).reverse.map (Bit.mk s)

/-- The name that the declaration of its signal gives to a bit; a declaration lists the highest
bit first. -/
def Bit.node (d : Dialect) (b : Bit) : String :=
  ((b.signal.bits d).reverse[b.index]?).getD ""

/-- A bit of a bus is named by its index, a wire by itself. -/
theorem Bit.node_eq {d : Dialect} {b : Bit} (h : b.index < b.signal.width.toNat) :
    b.node d = if b.signal.width = 1 then b.signal.name else d.busBit b.signal.name b.index := by
  unfold Bit.node Signal.bits
  split
  · rename_i one
    rw [one] at h
    have zero : b.index = 0 := Nat.lt_one_iff.mp h
    simp [zero]
  · simp [← List.map_reverse, h]

/-- A declaration lists the names of all bits. -/
theorem Signal.bits_eq (d : Dialect) (s : Signal) : s.bits d = s.allBits.map (Bit.node d) := by
  apply List.ext_getElem
  · simp [Signal.allBits]
  · intro i hi hj
    rw [Signal.length_bits] at hi
    have back : s.width.toNat - 1 - (s.width.toNat - 1 - i) = i := by omega
    simp only [Signal.allBits, List.getElem_map, List.getElem_reverse, List.length_range,
      List.getElem_range, Bit.node]
    rw [List.getElem?_eq_getElem (by simp; omega), Option.getD_some, List.getElem_reverse]
    simp only [Signal.length_bits, back]

theorem Bit.node_mem {d : Dialect} {b : Bit} (h : b.index < b.signal.width.toNat) :
    b.node d ∈ b.signal.bits d := by
  rw [Signal.bits_eq]
  refine List.mem_map_of_mem ?_
  unfold Signal.allBits
  exact List.mem_map.mpr ⟨b.index, by simpa using h, rfl⟩

/-- Where buses are expanded, an underscore stands between a name and an index. -/
theorem Dialect.busBit_eq {d : Dialect} (expands : d.family ≠ .verilog) (name : String)
    (index : Nat) : d.busBit name index = name ++ "_" ++ toString index := by
  unfold Dialect.busBit
  cases h : d.family with
  | spice => rfl
  | spectre => rfl
  | verilog => exact absurd h expands

/-! ### Targets as lists of leaves -/

/-- An end of a target. -/
inductive Leaf where
  | whole (name : String)
  | range (slice : Slice)
deriving DecidableEq, Repr

namespace Leaf

/-- The leaf refers to a signal and stays within it. -/
def Fits (signals : List Signal) : Leaf → Prop
  | whole name => ∃ s, SignalTable.find? signals name = some s
  | range r => ∃ s, SignalTable.find? signals r.signal = some s ∧ r.bottom ≤ r.top ∧ r.top < s.width

/-- The bits that a leaf denotes. -/
def bits (signals : List Signal) : Leaf → List Bit
  | whole name => (SignalTable.find? signals name).toList.flatMap Signal.allBits
  | range r => (SignalTable.find? signals r.signal).toList.flatMap fun s =>
      (downTo r.top.toNat r.bottom.toNat).map (Bit.mk s)

/-- The nodes that are written for a leaf. -/
def nodes (d : Dialect) (signals : List Signal) : Leaf → List String
  | whole name => (SignalTable.find? signals name).toList.flatMap (Signal.bits d)
  | range r => r.bits d

/-- A range of a one-bit wire. -/
def slicesWire (signals : List Signal) : Leaf → Bool
  | whole _ => false
  | range r => (SignalTable.find? signals r.signal).any (·.width == 1)

end Leaf

namespace Target

mutual

/-- The leaves of a target from left to right. -/
def leaves : Target → List Leaf
  | .signal name => [.whole name]
  | .slice r => [.range r]
  | .concat parts => leavesOfAll parts

def leavesOfAll : List Target → List Leaf
  | [] => []
  | part :: parts => leaves part ++ leavesOfAll parts

end

/-- The bits that a target denotes: those of its parts, one part after the other. -/
def bits (signals : List Signal) (target : Target) : List Bit :=
  target.leaves.flatMap (Leaf.bits signals)

/-- The nodes that are written for a target. -/
def nodes (d : Dialect) (signals : List Signal) (target : Target) : List String :=
  target.leaves.flatMap (Leaf.nodes d signals)

/-- Some part of the target is a range of a one-bit wire. -/
def slicesWire (signals : List Signal) (target : Target) : Bool :=
  target.leaves.any (Leaf.slicesWire signals)

end Target

end CircuitNetlist
