import CircuitNetlist.Circuit.Basic
import CircuitNetlist.Fault

/-!
# Signal tables

The signals of a module, each once, split into the ones that are ports and the others. A module
has a table only if all its signals have a width and distinct names, and its ports are distinct
and refer to signals.
-/
namespace CircuitNetlist

structure SignalTable where
  signals : List Signal
  /-- The ports in declared order, each with its signal. -/
  ports : List (Port × Signal)
  /-- The signals that are no ports, in declared order. -/
  internal : List Signal
deriving DecidableEq, Repr

namespace SignalTable

/-- The signal of that name in a list. -/
def find? (signals : List Signal) (name : String) : Option Signal :=
  signals.find? (·.name == name)

/-- Adds one signal to those before it. -/
def addSignal (signals : List Signal) (s : Signal) : Except Cause (List Signal) :=
  if s.width = 0 then throw (.zeroWidth s.name)
  else if (find? signals s.name).isSome then throw (.duplicateSignal s.name)
  else return signals ++ [s]

/-- Adds one port to those before it. -/
def addPort (signals : List Signal) (ports : List (Port × Signal)) (p : Port) :
    Except Cause (List (Port × Signal)) :=
  if ports.any (·.1.signal == p.signal) then throw (.duplicatePort p.signal)
  else
    match find? signals p.signal with
    | none => throw (.unknownSignal p.signal)
    | some s => return ports ++ [(p, s)]

/-- The signals of a module. -/
def ofModule (m : Module) : Except Cause SignalTable := do
  let signals ← m.signals.foldlM addSignal []
  let ports ← m.ports.foldlM (addPort signals) []
  let internal := signals.filter fun s => !ports.any (·.1.signal == s.name)
  return { signals, ports, internal }

/-- The signal of that name. -/
def get (t : SignalTable) (name : String) : Except Cause Signal :=
  match find? t.signals name with
  | some s => .ok s
  | none => .error (.unknownSignal name)

end SignalTable

end CircuitNetlist
