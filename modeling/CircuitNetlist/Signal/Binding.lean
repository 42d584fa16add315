import CircuitNetlist.Scope.Basic
import CircuitNetlist.Signal.Target

/-!
# Binding ports

The connections of an instance may come in any order; they are written in the order of the
target's ports. Every port has to be connected exactly once, and nothing else may be.
-/
namespace CircuitNetlist

/-- One port of an instance and the text of what it is connected to. -/
structure PortBinding where
  port : String
  text : String
deriving DecidableEq, Repr

/-- Adds one connection to those before it: it has to name a port, and one that is still free. -/
def addConnection (target : Resolved) (before : List Connection) (c : Connection) :
    Except Cause (List Connection) :=
  if !target.ports.any (·.signal == c.port) then
    throw (.unknownPort c.port target.displayName)
  else if before.any (·.port == c.port) then throw (.duplicateConnection c.port)
  else return before ++ [c]

/-- The text that one port is connected to. -/
def bindPort (d : Dialect) (signals : SignalTable) (connections : List Connection) (p : Port) :
    Except Cause PortBinding :=
  match connections.find? (·.port == p.signal) with
  | none => throw (.unconnectedPort p.signal)
  | some c => do return { port := p.signal, text := ← c.target.textIn d signals }

/-- The connections of an instance, in the order of the target's ports. -/
def bindPorts (d : Dialect) (signals : SignalTable) (target : Resolved)
    (connections : List Connection) : Except Cause (List PortBinding) := do
  let accepted ← connections.foldlM (addConnection target) []
  target.ports.mapM (bindPort d signals accepted)

end CircuitNetlist
