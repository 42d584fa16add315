import CircuitNetlist.Netlist.Instance

/-!
# Modules in Verilog

A module has a header with its parameters and its ports, one a line, and a body one level deep
with the other signals, the instances and the literal lines. A parameter needs no default here,
but every port needs a direction.
-/
namespace CircuitNetlist.Verilog

/-- The range of a bus; a wire of one bit has none. -/
def rangeText (s : Signal) : String :=
  if 1 < s.width then s!"[{s.width.toNat - 1}:0] " else ""

def directionKeyword (p : Port) : Except Cause String :=
  match p.direction with
  | .input => .ok "input"
  | .output => .ok "output"
  | .inout => .ok "inout"
  | .undirected => .error (.undirectedPort p.signal)

def parameterDeclaration (d : Dialect) (p : Param) : Except Cause String :=
  match p.value with
  | some value => do
    return "parameter " ++ p.name ++ " = " ++ (← paramText d p.name value).render d
  | none => return "parameter " ++ p.name

def portDeclaration (port : Port × Signal) : Except Cause String := do
  let direction ← directionKeyword port.1
  return direction ++ " wire " ++ rangeText port.2 ++ port.2.name

/-- The lines of the parameter list. -/
def parameterLines (d : Dialect) (declared : List Param) : Except Cause (List Line) := do
  if declared.isEmpty then return [.comment d 0 "No parameters"]
  let entries ← declared.mapM (parameterDeclaration d)
  return [.text 0 "#("] ++ (commaLines entries).map (.text 1) ++ [.text 0 ")"]

/-- The lines of the port list. -/
def portLines (ports : List (Port × Signal)) : Except Cause (List Line) := do
  if ports.isEmpty then return [.text 0 "( ); // No ports"]
  let entries ← ports.mapM portDeclaration
  return [.text 0 "("] ++ (commaLines entries).map (.text 1) ++ [.text 0 ");"]

/-- The declarations of the signals that are no ports. -/
def signalLines (d : Dialect) (signals : List Signal) : List Line :=
  if signals.isEmpty then [.comment d 1 "No Signal Declarations"]
  else
    .comment d 1 "Signal Declarations"
      :: signals.map fun s => .text 1 ("wire " ++ rangeText s ++ s.name ++ ";")

/-- The comment that announces the instances. -/
def instancesLine (d : Dialect) (is : List Instance) : Line :=
  .comment d 1 (if is.isEmpty then "No Instances" else "Instance Declarations")

/-- Writes the definition of a module under its netlist name. -/
def moduleScript (d : Dialect) (m : Module) (name : String) (signals : SignalTable)
    (scope : Scope) : Script Scope := do
  Script.write (.text 0 ("module " ++ name))
  Script.writeAll (← Script.check (parameterLines d m.parameters))
  Script.writeAll (← Script.check (portLines signals.ports))
  Script.write (.blank 0)
  Script.writeAll (signalLines d signals.internal)
  Script.write (.blank 1)
  Script.write (instancesLine d m.instances)
  let scope ← Instance.scriptAll d signals scope m.instances
  Script.writeAll (m.literals.map (.text 1))
  Script.writeAll [.text 0 ("endmodule // " ++ name), .blank 0]
  return scope

end CircuitNetlist.Verilog
