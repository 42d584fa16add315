import CircuitNetlist.Netlist.Deck
import CircuitNetlist.Session.Sink

/-!
# Sessions

A session plays scripts into a sink. It keeps the names that are known and the depth of
indentation from one call to the next, also where a call fails: a failed call leaves the depth
of the last line that it tried to write, a successful one the depth that it found. The first
event that the sink refuses ends the call.
-/
namespace CircuitNetlist

structure Session where
  dialect : Dialect
  options : Options := {}
  scope : Scope := .empty
  /-- How deep the session's lines start. -/
  depth : Nat := 0
  sink : Sink := {}
  log : List LogRecord := []

namespace Session

/-- A session for a format, if that has a writer. -/
def open? (format : Format) (options : Options) (sink : Sink) : Except Fault Session :=
  match Dialect.ofFormat format with
  | .ok dialect => .ok { dialect, options, sink }
  | .error cause => .error (.plain cause)

/-- Performs one action of a call that started at depth `base`. -/
def perform (base : Nat) (s : Session) : Action → Session × Option OutputFault
  | .write line =>
    let (sink, refused) := s.sink.write ((line.shift base).render s.options.indent)
    ({ s with sink, depth := base + line.depth }, refused)
  | .log record => ({ s with log := s.log ++ [record] }, none)
  | .enter scope => ({ s with scope }, none)
  | .flush => (s, s.sink.flush)

/-- Performs events until one is refused. -/
def play (base : Nat) (s : Session) : List Event → Session × Option Fault
  | [] => (s, none)
  | event :: events =>
    match s.perform base event.action with
    | (s, none) => s.play base events
    | (s, some refused) => (s, some (.ofPlaces event.places (.output refused)))

/-- Plays a script. What the sink refuses comes before the fault that the script ends with. -/
def run {α : Type} (s : Session) (script : Script α) : Except Fault α × Session :=
  match s.play s.depth script.events, script.result with
  | (after, some fault), _ => (.error fault, after)
  | (after, none), .error fault => (.error fault, after)
  | (after, none), .ok a => (.ok a, { after with depth := s.depth })

/-- Writes a package. -/
def writePackage (s : Session) (p : Package) : Except Fault Scope × Session :=
  s.run (p.script s.dialect s.options s.scope)

/-- Writes the definition of one module. -/
def writeModule (s : Session) (m : Module) : Except Fault Scope × Session :=
  s.run (m.script s.dialect s.scope)

/-- Writes a simulation deck. -/
def writeSimulation (s : Session) (input : SimulationInput) : Except Fault Scope × Session :=
  s.run (input.script s.dialect s.options s.scope)

/-- Writes a control card. -/
def writeControl (s : Session) (c : Control) : Except Fault Unit × Session :=
  s.run (c.script s.dialect)

/-- Writes an analysis. -/
def writeAnalysis (s : Session) (a : Analysis) : Except Fault Unit × Session :=
  s.run (a.script s.dialect)

end Session

end CircuitNetlist
