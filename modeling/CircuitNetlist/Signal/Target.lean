import CircuitNetlist.Dialect
import CircuitNetlist.Signal.Table

/-!
# The text of connections

A bus is written bit by bit, the highest bit first, except in Verilog, which has ranges and
concatenations of its own. A wire of one bit is written by its name alone.
-/
namespace CircuitNetlist

/-- The indices from `top` down to `bottom`. -/
def downTo (top bottom : Nat) : List Nat :=
  (List.range' bottom (top + 1 - bottom)).reverse

theorem mem_downTo {top bottom i : Nat} : i ∈ downTo top bottom ↔ bottom ≤ i ∧ i ≤ top := by
  simp only [downTo, List.mem_reverse, List.mem_range'_1]
  omega

@[simp] theorem length_downTo (top bottom : Nat) :
    (downTo top bottom).length = top + 1 - bottom := by
  simp [downTo]

/-- The node names of a signal, its highest bit first. -/
def Signal.bits (d : Dialect) (s : Signal) : List String :=
  if s.width = 1 then [s.name]
  else (List.range s.width.toNat).reverse.map (d.busBit s.name)

/-- A signal has as many nodes as it is wide. -/
@[simp] theorem Signal.length_bits (d : Dialect) (s : Signal) :
    (s.bits d).length = s.width.toNat := by
  unfold Signal.bits
  split <;> simp_all

/-- The node names of a slice. -/
def Slice.bits (d : Dialect) (s : Slice) : List String :=
  (downTo s.top.toNat s.bottom.toNat).map (d.busBit s.signal)

/-- Words with one blank between them. -/
def joinWords (words : List String) : String :=
  " ".intercalate words

/-- The node names of a module's ports. -/
def SignalTable.portList (t : SignalTable) (d : Dialect) : String :=
  joinWords (t.ports.flatMap fun port => port.2.bits d)

/-- A slice has to be a range of an existing signal. -/
def SignalTable.checkSlice (t : SignalTable) (s : Slice) : Except Cause Unit := do
  let signal ← t.get s.signal
  if s.top < s.bottom then throw (.emptySlice s)
  if signal.width ≤ s.top then throw (.sliceOutOfRange s signal.width)

namespace Target

/-- A signal's name stands for all its bits. -/
def signalText (d : Dialect) (s : Signal) : String :=
  match d.family with
  | .verilog => s.name
  | .spice | .spectre => joinWords (s.bits d)

def sliceText (d : Dialect) (s : Slice) : String :=
  match d.family with
  | .verilog =>
    if s.top = s.bottom then s!"{s.signal}[{s.top.toNat}]"
    else s!"{s.signal}[{s.top.toNat}:{s.bottom.toNat}]"
  | .spice | .spectre => joinWords (s.bits d)

def concatText (d : Dialect) (parts : List String) : String :=
  match d.family with
  | .verilog => "\x7b" ++ ", ".intercalate parts ++ "\x7d"
  | .spice | .spectre => joinWords parts

mutual

/-- The text of a target, or the first thing wrong with it. -/
def textIn (d : Dialect) (t : SignalTable) : Target → Except Cause String
  | .signal name => do return signalText d (← t.get name)
  | .slice range => do
    t.checkSlice range
    return sliceText d range
  | .concat [] => throw .emptyConcat
  | .concat (part :: parts) => do
    let first ← textIn d t part
    let others ← textsIn d t parts
    return concatText d (first :: others)

def textsIn (d : Dialect) (t : SignalTable) : List Target → Except Cause (List String)
  | [] => return []
  | part :: parts => do
    let text ← textIn d t part
    let texts ← textsIn d t parts
    return text :: texts

end

end Target

end CircuitNetlist
