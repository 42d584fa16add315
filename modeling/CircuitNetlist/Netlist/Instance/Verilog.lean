import CircuitNetlist.Netlist.Line
import CircuitNetlist.Signal.Binding

/-!
# Instances in Verilog

An instance is its target, its parameters by name, its own name and its connections by name, one
a line. There are neither ideal elements nor device models.
-/
namespace CircuitNetlist.Verilog

/-- The parameters by name, all on one line. -/
def overridesLine (d : Dialect) (params : ParamTable) : Line :=
  if params.isEmpty then .comment d 1 "No parameters"
  else
    let overrides := params.entries.map fun entry =>
      "." ++ entry.1 ++ "(" ++ entry.2.render d ++ ")"
    .text 1 ("#( " ++ ", ".intercalate overrides ++ " )")

/-- The connections by name, one a line. -/
def bindingLines (bindings : List PortBinding) : List Line :=
  if bindings.isEmpty then [.text 1 "( );"]
  else
    let entries := bindings.map fun b => "." ++ b.port ++ "(" ++ b.text ++ ")"
    [.text 1 "("] ++ (commaLines entries).map (.text 2) ++ [.text 1 ");"]

/-- The lines of one instance, one level deep. -/
def instanceLines (d : Dialect) (i : Instance) (target : Resolved) (params : ParamTable)
    (bindings : List PortBinding) : Except Cause (List Line) := do
  let name ← match target with
    | .internal _ name | .external _ name => pure name
    | .primitive m => throw (.unsupported d.format (.primitiveInstances m.name))
    | .model _ name => throw (.unsupported d.format (.modelInstances name))
  return [.text 1 name, overridesLine d params, .text 1 i.name] ++ bindingLines bindings
    ++ [.blank 1]

end CircuitNetlist.Verilog
