import CircuitNetlist.Circuit.Basic

/-!
# Built-in primitives

One privileged domain holds a fixed table of ideal elements: passives, dependent sources and
independent sources. Devices that refer to a model card need a model name of their own and are
made by the functions at the end. A second privileged domain holds elements that have to be
mapped to a technology first and are never netlisted.
-/
namespace CircuitNetlist.Primitive

/-- The domain of the table of ideal elements. -/
def idealDomain : String :=
  "vlsir.primitives"

/-- The domain of elements that are independent of a technology. -/
def physicalDomain : String :=
  "hdl21.primitives"

/-- An element with one-bit ports and no parameters. -/
def element (domain name : String) (kind : ElementKind) (ports : List String) : ExternalModule :=
  ports.foldl ExternalModule.withPort { name := { domain, name }, kind }

/-- An ideal element whose parameters are all mandatory. -/
def ideal (name : String) (kind : ElementKind) (ports params : List String) : ExternalModule :=
  (params.map Param.required).foldl ExternalModule.withParameter
    (element idealDomain name kind ports)

def twoTerminal (name : String) (kind : ElementKind) (params : List String) : ExternalModule :=
  ideal name kind ["p", "n"] params

/-- A source controlled by a second pair of terminals. -/
def dependentSource (name : String) (kind : ElementKind) : ExternalModule :=
  ideal name kind ["p", "n", "cp", "cn"] ["gain"]

/-- The table of ideal elements. -/
def table : List ExternalModule :=
  [twoTerminal "resistor" .resistor ["r"],
    twoTerminal "capacitor" .capacitor ["c"],
    twoTerminal "inductor" .inductor ["l"],
    dependentSource "vcvs" .vcvs,
    dependentSource "vccs" .vccs,
    dependentSource "cccs" .cccs,
    dependentSource "ccvs" .ccvs,
    twoTerminal "isource" .currentSource ["dc"],
    (twoTerminal "vdc" .voltageSource ["dc"]).withParameter (.withValue "ac" (.int 0)),
    twoTerminal "vpulse" .voltageSource ["v1", "v2", "td", "tr", "tf", "tpw", "tper"],
    twoTerminal "vsin" .voltageSource ["voff", "vamp", "freq", "td", "phase"]]

/-- The names of the table, in order. -/
def names : List String :=
  table.map (·.name.name)

/-- The ideal element of that name. -/
def find? (name : String) : Option ExternalModule :=
  table.find? (·.name.name == name)

/-- A MOS transistor with the model `name`. -/
def mos (name : String) : ExternalModule :=
  element "vlsir.primitives.mos" name .mos ["d", "g", "s", "b"]

/-- A bipolar transistor with the model `name`. -/
def bipolar (name : String) : ExternalModule :=
  element "vlsir.primitives.bipolar" name .bipolar ["c", "b", "e"]

/-- A diode with the model `name`. -/
def diode (name : String) : ExternalModule :=
  element "vlsir.primitives.diode" name .diode ["p", "n"]

/-- A transmission line with the model `name`. -/
def transmissionLine (name : String) : ExternalModule :=
  element "vlsir.primitives.tline" name .transmissionLine ["p1p", "p1n", "p2p", "p2n"]

end CircuitNetlist.Primitive
