import CircuitNetlist.Netlist.Instance

/-!
# Modules in Spectre

A module is a subcircuit whose body is one level deep and whose end repeats its name.
-/
namespace CircuitNetlist.Spectre

/-- The declared parameters. -/
def parametersLine (d : Dialect) (declared : List Param) : Except Cause Line := do
  if declared.isEmpty then return .comment d 1 "No parameters"
  return .text 1 ("parameters " ++ joinWords (← declarations d declared))

/-- Writes the definition of a module under its netlist name. -/
def moduleScript (d : Dialect) (m : Module) (name : String) (signals : SignalTable)
    (scope : Scope) : Script Scope := do
  Script.write (.text 0 ("subckt " ++ name))
  Script.write (continuationOr d 1 "No ports" (signals.portList d))
  Script.write (← Script.check (parametersLine d m.parameters))
  Script.write (.blank 1)
  let scope ← Instance.scriptAll d signals scope m.instances
  Script.writeAll (m.literals.map (.text 1))
  Script.writeAll [.text 0 ("ends " ++ name), .blank 0]
  return scope

end CircuitNetlist.Spectre
