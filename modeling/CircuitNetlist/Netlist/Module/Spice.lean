import CircuitNetlist.Netlist.Instance

/-!
# Modules in the Spice family

A module is a subcircuit: its name, its nodes, its parameters with their defaults, then the
instances and the literal lines. Nothing is indented.
-/
namespace CircuitNetlist.Spice

/-- The declared parameters, behind the dialect's keyword. -/
def parametersLine (d : Dialect) (declared : List Param) : Except Cause Line := do
  if declared.isEmpty then return .comment d 0 "No parameters"
  let texts := joinWords (← declarations d declared)
  match d.paramsKeyword with
  | some word => return .continuation 0 (word ++ " " ++ texts)
  | none => return .continuation 0 texts

/-- Writes the definition of a module under its netlist name. -/
def moduleScript (d : Dialect) (m : Module) (name : String) (signals : SignalTable)
    (scope : Scope) : Script Scope := do
  Script.write (.text 0 (".SUBCKT " ++ name))
  Script.write (continuationOr d 0 "No ports" (signals.portList d))
  Script.write (← Script.check (parametersLine d m.parameters))
  Script.write (.blank 0)
  let scope ← Instance.scriptAll d signals scope m.instances
  Script.writeAll (m.literals.map (.text 0))
  Script.writeAll [.text 0 ".ENDS", .blank 0]
  return scope

end CircuitNetlist.Spice
