import CircuitNetlist.Netlist.Instance.Spectre
import CircuitNetlist.Netlist.Instance.Spice
import CircuitNetlist.Netlist.Instance.Verilog
import CircuitNetlist.Netlist.Script
import CircuitNetlist.Parameter.Resolution

/-!
# Writing instances

An instance is worked out completely before its first line is written: its reference, its
parameters, its connections and its layout. So an instance that is at fault leaves no text.
-/
namespace CircuitNetlist

/-- The lines of an instance, in the layout of the dialect's family. -/
def instanceLines (d : Dialect) (i : Instance) (target : Resolved) (params : ParamTable)
    (bindings : List PortBinding) : Except Cause (List Line) :=
  match d.family with
  | .spice => Spice.instanceLines d i target params bindings
  | .spectre => Spectre.instanceLines d i target params bindings
  | .verilog => Verilog.instanceLines d i target params bindings

/-- A parameter that the target does not declare is passed on, with a warning. -/
def warnUndeclared (names : List String) : Script Unit :=
  names.forM fun name => .log .warn s!"passing through undeclared parameter `{name}`"

/-- Writes one instance of a module with the given signals. -/
def Instance.script (d : Dialect) (signals : SignalTable) (scope : Scope) (i : Instance) :
    Script Scope :=
  Script.within (.instanceNamed i.name) do
    let (target, scope) ← Script.use (scope.resolve i.reference)
    let params ← Script.check (resolveParams d i.parameters target.parameters)
    warnUndeclared params.undeclared
    let bindings ← Script.check (bindPorts d signals target i.connections)
    Script.log .debug s!"writing instance `{i.name}` of {i.reference.text}"
    let lines ← Script.check (instanceLines d i target params.table bindings)
    Script.writeAll lines
    return scope

/-- Writes instances one after the other. -/
def Instance.scriptAll (d : Dialect) (signals : SignalTable) (scope : Scope) (is : List Instance) :
    Script Scope :=
  is.foldlM (Instance.script d signals) scope

end CircuitNetlist
