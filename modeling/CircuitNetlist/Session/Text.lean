import CircuitNetlist.Session.Basic

/-!
# Netlists as texts

The text of a script is its lines under an indentation. A package or a simulation input has a
netlist text only if its script ends well.
-/
namespace CircuitNetlist

namespace Script

variable {α : Type}

/-- The lines that a script writes. -/
def lines (m : Script α) : List Line :=
  m.events.filterMap fun event =>
    match event.action with
    | .write line => some line
    | _ => none

/-- The text that a script writes. -/
def text (m : Script α) (indent : String) : String :=
  String.join (m.lines.map (Line.render indent))

/-- The text of a script that ends well. -/
def textIfOk (m : Script α) (indent : String) : Except Fault String :=
  m.result.map fun _ => m.text indent

end Script

/-- The dialect of a format, as a step that may fail. -/
def Format.dialect (f : Format) : Except Fault Dialect :=
  (Dialect.ofFormat f).mapError .plain

/-- The netlist of a package, with default options. -/
def Package.netlist (p : Package) (f : Format) : Except Fault String := do
  let options : Options := {}
  (p.script (← f.dialect) options .empty).textIfOk options.indent

/-- The deck of a simulation input, with default options. -/
def SimulationInput.deck (s : SimulationInput) (f : Format) : Except Fault String := do
  let options : Options := {}
  (s.script (← f.dialect) options .empty).textIfOk options.indent

end CircuitNetlist
