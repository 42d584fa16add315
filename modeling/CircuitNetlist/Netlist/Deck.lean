import CircuitNetlist.Netlist.Analysis
import CircuitNetlist.Netlist.Package

/-!
# Writing simulation decks

A deck is a header, the package, an instance of the top module with its one port grounded, then
options, controls and analyses. Whether the top module can be used is settled before anything
is written.
-/
namespace CircuitNetlist.SimulationInput

/-- The top module, which has to have exactly one port. -/
def topModule (s : SimulationInput) : Except Cause Module :=
  match s.package.module? s.top with
  | none => throw (.undefinedTop s.top)
  | some m =>
    if m.ports.length = 1 then return m
    else throw (.topPortCount s.top m.ports.length)

/-- The first lines of a deck. -/
def headerLines (d : Dialect) (s : SimulationInput) : List Line :=
  [.comment d 0 s!"Simulation Input, top module `{s.top}`"]
    ++ (if d = .spectre then [.text 0 "simulator lang=spectre", .text 0 "global 0"] else [])
    ++ [.blank 0]

/-- The instance of the top module of that name. -/
def topLine (d : Dialect) (name : String) : Line :=
  let text := "xtop 0 " ++ sanitize name
  match d.topComment with
  | some comment => .text 0 (text ++ " " ++ comment)
  | none => .text 0 text

/-- The last line of a deck, if the family has one. -/
def endLines (d : Dialect) : List Line :=
  if d.family = .spice then [.text 0 ".end"] else []

/-- Writes a deck. -/
def script (d : Dialect) (options : Options) (scope : Scope) (s : SimulationInput) :
    Script Scope := do
  if d.family = .verilog then Script.fail (d.unsupported .simulationInput)
  let top ← Script.check s.topModule
  Script.writeAll (s.headerLines d)
  let scope ← s.package.script d options scope
  Script.writeAll [topLine d top.name, .blank 0]
  s.options.forM (SimulatorOption.script d)
  s.controls.forM (Control.script d)
  s.analyses.forM (Analysis.script d)
  Script.writeAll (endLines d)
  Script.flush
  Script.log .info
    s!"wrote simulation input for `{s.top}` with {s.analyses.length} analyses as {d.format.name}"
  return scope

end CircuitNetlist.SimulationInput
