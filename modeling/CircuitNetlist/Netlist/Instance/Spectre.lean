import CircuitNetlist.Netlist.Line
import CircuitNetlist.Signal.Binding

/-!
# Instances in Spectre

An instance is its name, its nodes in parentheses, its target and its parameters. Ideal elements
are elements of the same name, except that the three voltage sources are one element: a type
parameter in front tells them apart, and their fields have names of their own.
-/
namespace CircuitNetlist.Spectre

/-- The field names of a pulse source. -/
def pulseRenames : List (String × String) :=
  [("v1", "val0"), ("v2", "val1"), ("td", "delay"), ("tr", "rise"), ("tf", "fall"),
    ("tpw", "width"), ("tper", "period")]

/-- The field names of a sine source; its frequency keeps its name. -/
def sineRenames : List (String × String) :=
  [("voff", "sinedc"), ("vamp", "ampl"), ("td", "delay"), ("phase", "sinephase")]

/-- The type of a voltage source, and the names that its fields get. -/
def sourceType (source : String) : Option (String × List (String × String)) :=
  if source = "vdc" then some ("dc", [("ac", "mag")])
  else if source = "vpulse" then some ("pulse", pulseRenames)
  else if source = "vsin" then some ("sine", sineRenames)
  else none

/-- The parameters with their new names, one rename after the other. -/
def renameAll (params : ParamTable) (renames : List (String × String)) : ParamTable :=
  renames.foldl (fun params names => params.rename names.1 names.2) params

/-- The element that stands for a primitive, and its parameters under the element's names. -/
def element (m : ExternalModule) (params : ParamTable) : Except Cause (String × ParamTable) :=
  match m.kind with
  | .resistor => return ("resistor", params)
  | .capacitor => return ("capacitor", params)
  | .inductor => return ("inductor", params)
  | .currentSource => return ("isource", params)
  | .vcvs => return ("vcvs", params)
  | .vccs => return ("vccs", params)
  | .cccs => return ("cccs", params)
  | .ccvs => return ("ccvs", params)
  | .voltageSource =>
    match sourceType m.name.name with
    | some (type, renames) =>
      return ("vsource", (renameAll params renames).setFirst "type" { text := type })
    | none => throw (.invalidPrimitive m.name.name m.kind)
  | .subcircuit | .mos | .diode | .bipolar | .transmissionLine =>
    throw (.invalidPrimitive m.name.name m.kind)

def nodesLine (bindings : List PortBinding) : Line :=
  let nodes := joinWords (bindings.map (·.text))
  .continuation 1 (if nodes.isEmpty then "( )" else "( " ++ nodes ++ " )")

/-- The lines of one instance, one level deep. -/
def instanceLines (d : Dialect) (i : Instance) (target : Resolved) (params : ParamTable)
    (bindings : List PortBinding) : Except Cause (List Line) := do
  let (name, params) ← match target with
    | .internal _ name | .external _ name | .model _ name => pure (name, params)
    | .primitive m => element m params
  return [.text 1 i.name, nodesLine bindings, .continuation 1 name, paramsLine d 1 none params,
    .blank 1]

end CircuitNetlist.Spectre
