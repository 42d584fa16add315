import CircuitNetlist.Netlist.Line
import CircuitNetlist.Signal.Binding

/-!
# Instances in the Spice family

An instance is a name with the letter of its kind, the nodes, the target and the parameters. An
ideal element has no target: the value that makes it what it is stands in its place, and the
three voltage sources write theirs as clauses.
-/
namespace CircuitNetlist.Spice

/-- The parameter that is written by position for a basic element. -/
def positionalParam : ElementKind → Option String
  | .resistor => some "r"
  | .capacitor => some "c"
  | .inductor => some "l"
  | .currentSource => some "dc"
  | .vcvs | .vccs | .cccs | .ccvs => some "gain"
  | .subcircuit | .voltageSource | .mos | .diode | .bipolar | .transmissionLine => none

/-- The fields of a pulse source, in order. -/
def pulseFields : List String :=
  ["v1", "v2", "td", "tr", "tf", "tpw", "tper"]

/-- The fields of a sine source, in order. -/
def sineFields : List String :=
  ["voff", "vamp", "freq", "td", "phase"]

def nodesLine (d : Dialect) (bindings : List PortBinding) : Line :=
  if bindings.isEmpty then .comment d 0 "No ports"
  else .continuation 0 (joinWords (bindings.map (·.text)))

/-- The name of an instance starts with the letter of its kind. -/
def nameLine (kind : ElementKind) (name : String) : Line :=
  .text 0 (kind.letter.toString ++ name)

/-- A list of values in parentheses behind a keyword. -/
def clause (d : Dialect) (keyword : String) (values : List ValueText) : Line :=
  .continuation 0 (keyword ++ "(" ++ joinWords (values.map (·.render d)) ++ ")")

/-- The clauses of a voltage source, and the parameters that they leave over. -/
def sourceClauses (d : Dialect) (source : String) (params : ParamTable) :
    Except Cause (List Line × ParamTable) :=
  if source = "vdc" then do
    let (dc, params) ← params.pop "dc"
    let (ac, params) ← params.pop "ac"
    return ([.continuation 0 ("dc " ++ dc.render d), .continuation 0 ("ac " ++ ac.render d)],
      params)
  else if source = "vpulse" then do
    let (fields, params) := params.popMany pulseFields
    return ([clause d "pulse" (← fields)], params)
  else if source = "vsin" then do
    let (fields, params) := params.popMany sineFields
    return ([clause d "sin" (← fields)], params)
  else throw (.invalidPrimitive source .voltageSource)

/-- What stands for the target of an ideal element, and the parameters that it leaves over. -/
def elementClauses (d : Dialect) (m : ExternalModule) (params : ParamTable) :
    Except Cause (List Line × ParamTable) :=
  if m.kind = .voltageSource then sourceClauses d m.name.name params
  else
    match positionalParam m.kind with
    | none => throw (.invalidPrimitive m.name.name m.kind)
    | some name => do
      let (value, params) ← params.pop name
      return ([.continuation 0 (value.render d)], params)

/-- The lines of one instance. -/
def instanceLines (d : Dialect) (i : Instance) (target : Resolved) (params : ParamTable)
    (bindings : List PortBinding) : Except Cause (List Line) := do
  let (kind, clauses, keyword, params) ← match target with
    | .internal _ name | .external _ name =>
      pure (.subcircuit, [.continuation 0 name], d.paramsKeyword, params)
    | .model m name => pure (m.kind, [.continuation 0 name], none, params)
    | .primitive m => do
      let (clauses, params) ← elementClauses d m params
      pure (m.kind, clauses, none, params)
  return [nameLine kind i.name, nodesLine d bindings] ++ clauses
    ++ [paramsLine d 0 keyword params, .blank 0]

end CircuitNetlist.Spice
