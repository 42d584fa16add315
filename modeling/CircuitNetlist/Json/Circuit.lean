import CircuitNetlist.Circuit.Basic
import CircuitNetlist.Json.Decoder
import CircuitNetlist.Json.Reader
import CircuitNetlist.Json.Writer

/-!
# The interchange format of circuits

Every type has an encoder that writes its fields in their declared order, and a decoder that
takes them in any order. Missing lists are empty; a missing optional value is none.
-/
namespace CircuitNetlist

/-- The names of the values of a finite type, paired with the values. -/
def namedBy {α : Type} (name : α → String) (values : List α) : List (String × α) :=
  values.map fun value => (name value, value)

/-- A field that is left out when it has no value. -/
def optionalField (name : String) (text : Option String) : List (String × Json) :=
  match text with
  | some s => [(name, .ofString s)]
  | none => []

namespace ElementKind

/-- The name in the interchange format. -/
def code : ElementKind → String
  | subcircuit => "subckt"
  | resistor => "resistor"
  | capacitor => "capacitor"
  | inductor => "inductor"
  | mos => "mos"
  | diode => "diode"
  | bipolar => "bipolar"
  | voltageSource => "vsource"
  | currentSource => "isource"
  | vcvs => "vcvs"
  | vccs => "vccs"
  | cccs => "cccs"
  | ccvs => "ccvs"
  | transmissionLine => "tline"

def toJson (kind : ElementKind) : Json :=
  .ofString kind.code

def decode : Decoder ElementKind :=
  .choice (namedBy code all)

end ElementKind

namespace SiScale

/-- The name in the interchange format. -/
def code : SiScale → String
  | yocto => "yocto"
  | zepto => "zepto"
  | atto => "atto"
  | femto => "femto"
  | pico => "pico"
  | nano => "nano"
  | micro => "micro"
  | milli => "milli"
  | centi => "centi"
  | deci => "deci"
  | unit => "unit"
  | deca => "deca"
  | hecto => "hecto"
  | kilo => "kilo"
  | mega => "mega"
  | giga => "giga"
  | tera => "tera"
  | peta => "peta"
  | exa => "exa"
  | zetta => "zetta"
  | yotta => "yotta"

def toJson (scale : SiScale) : Json :=
  .ofString scale.code

def decode : Decoder SiScale :=
  .choice (namedBy code all)

end SiScale

namespace Mantissa

def toJson : Mantissa → Json
  | int i => .tagged "int" (.ofInt i.toInt)
  | double x => .tagged "double" (.ofDouble x)
  | text s => .tagged "string" (.ofString s)

def decode : Decoder Mantissa :=
  .variant [("int", fun depth j => (Decoder.int64 depth j).map int),
    ("double", fun depth j => (Decoder.double depth j).map double),
    ("string", fun depth j => (Decoder.text depth j).map text)]

end Mantissa

namespace Scaled

def toJson (s : Scaled) : Json :=
  .ofFields [("prefix", s.scale.toJson), ("number", s.mantissa.toJson)]

def decode : Decoder Scaled :=
  .record ["prefix", "number"] fun
    | depth, [scale, mantissa] => do
      let scale ← Decoder.required SiScale.decode depth scale
      let mantissa ← Decoder.required Mantissa.decode depth mantissa
      return { scale, mantissa }
    | _, _ => none

end Scaled

namespace Value

def toJson : Value → Json
  | int i => .tagged "int" (.ofInt i.toInt)
  | double x => .tagged "double" (.ofDouble x)
  | text s => .tagged "string" (.ofString s)
  | literal s => .tagged "literal" (.ofString s)
  | scaled s => .tagged "prefixed" s.toJson

def decode : Decoder Value :=
  .variant [("int", fun depth j => (Decoder.int64 depth j).map int),
    ("double", fun depth j => (Decoder.double depth j).map double),
    ("string", fun depth j => (Decoder.text depth j).map text),
    ("literal", fun depth j => (Decoder.text depth j).map literal),
    ("prefixed", fun depth j => (Scaled.decode depth j).map scaled)]

end Value

namespace Param

/-- A missing default is written as null, a missing description not at all. -/
def toJson (p : Param) : Json :=
  .ofFields ([("name", .ofString p.name),
    ("value", match p.value with | some v => v.toJson | none => .null)]
    ++ optionalField "desc" p.description)

def decode : Decoder Param :=
  .record ["name", "value", "desc"] fun
    | depth, [name, value, description] => do
      let name ← Decoder.required .text depth name
      let value ← Decoder.orElse none (.optional Value.decode) depth value
      let description ← Decoder.orElse none (.optional .text) depth description
      return { name, value, description }
    | _, _ => none

end Param

namespace QualifiedName

def toJson (q : QualifiedName) : Json :=
  .ofFields [("domain", .ofString q.domain), ("name", .ofString q.name)]

def decode : Decoder QualifiedName :=
  .record ["domain", "name"] fun
    | depth, [domain, name] => do
      let domain ← Decoder.required .text depth domain
      let name ← Decoder.required .text depth name
      return { domain, name }
    | _, _ => none

end QualifiedName

namespace Direction

/-- The name in the interchange format. -/
def code : Direction → String
  | input => "input"
  | output => "output"
  | inout => "inout"
  | undirected => "none"

def toJson (d : Direction) : Json :=
  .ofString d.code

def decode : Decoder Direction :=
  .choice (namedBy code all)

end Direction

namespace Port

def toJson (p : Port) : Json :=
  .ofFields [("signal", .ofString p.signal), ("direction", p.direction.toJson)]

def decode : Decoder Port :=
  .record ["signal", "direction"] fun
    | depth, [signal, direction] => do
      let signal ← Decoder.required .text depth signal
      let direction ← Decoder.orElse .undirected Direction.decode depth direction
      return { signal, direction }
    | _, _ => none

end Port

namespace Signal

def toJson (s : Signal) : Json :=
  .ofFields [("name", .ofString s.name), ("width", .ofInt s.width.toNat)]

def decode : Decoder Signal :=
  .record ["name", "width"] fun
    | depth, [name, width] => do
      let name ← Decoder.required .text depth name
      let width ← Decoder.required .uint64 depth width
      return { name, width }
    | _, _ => none

end Signal

namespace Slice

def toJson (s : Slice) : Json :=
  .ofFields [("signal", .ofString s.signal), ("top", .ofInt s.top.toNat),
    ("bot", .ofInt s.bottom.toNat)]

def decode : Decoder Slice :=
  .record ["signal", "top", "bot"] fun
    | depth, [signal, top, bottom] => do
      let signal ← Decoder.required .text depth signal
      let top ← Decoder.required .uint64 depth top
      let bottom ← Decoder.required .uint64 depth bottom
      return { signal, top, bottom }
    | _, _ => none

end Slice

namespace Target

mutual

def toJson : Target → Json
  | .signal name => .tagged "sig" (.ofString name)
  | .slice range => .tagged "slice" range.toJson
  | .concat parts => .tagged "concat" (.ofFields [("parts", .array (listToJson parts))])

def listToJson : List Target → List Json
  | [] => []
  | part :: parts => toJson part :: listToJson parts

end

/-- The parts of a concatenation as a record of their own. -/
def partsToJson (parts : List Target) : Json :=
  .ofFields [("parts", .array (listToJson parts))]

/-- A list of parts as a record with one field, given the decoder of a part. -/
def decodePartsWith (part : Decoder Target) : Decoder (List Target) :=
  .record ["parts"] fun
    | depth, [parts] => Decoder.required (.list part) depth parts
    | _, _ => none

/-- Targets of at most the given nesting of concatenations. -/
def decodeNested : Nat → Decoder Target
  | 0 => fun _ _ => none
  | nesting + 1 =>
    .variant [("sig", fun depth j => (Decoder.text depth j).map signal),
      ("slice", fun depth j => (Slice.decode depth j).map slice),
      ("concat", fun depth j =>
        (decodePartsWith (decodeNested nesting) depth j).map concat)]

/-- Every concatenation enters three levels, so the number of levels bounds the nesting. -/
def decode : Decoder Target :=
  fun depth j => decodeNested depth depth j

def decodeParts : Decoder (List Target) :=
  decodePartsWith decode

end Target

namespace Connection

def toJson (c : Connection) : Json :=
  .ofFields [("portname", .ofString c.port), ("target", c.target.toJson)]

def decode : Decoder Connection :=
  .record ["portname", "target"] fun
    | depth, [port, target] => do
      let port ← Decoder.required .text depth port
      let target ← Decoder.required Target.decode depth target
      return { port, target }
    | _, _ => none

end Connection

namespace Reference

def toJson : Reference → Json
  | internal name => .tagged "local" (.ofString name)
  | external name => .tagged "external" name.toJson

def decode : Decoder Reference :=
  .variant [("local", fun depth j => (Decoder.text depth j).map internal),
    ("external", fun depth j => (QualifiedName.decode depth j).map external)]

end Reference

namespace Instance

def toJson (i : Instance) : Json :=
  .ofFields [("name", .ofString i.name), ("module", i.reference.toJson),
    ("parameters", .ofList Param.toJson i.parameters),
    ("connections", .ofList Connection.toJson i.connections)]

def decode : Decoder Instance :=
  .record ["name", "module", "parameters", "connections"] fun
    | depth, [name, reference, parameters, connections] => do
      let name ← Decoder.required .text depth name
      let reference ← Decoder.required Reference.decode depth reference
      let parameters ← Decoder.orElse [] (.list Param.decode) depth parameters
      let connections ← Decoder.orElse [] (.list Connection.decode) depth connections
      return { name, reference, parameters, connections }
    | _, _ => none

end Instance

namespace Module

def toJson (m : Module) : Json :=
  .ofFields [("name", .ofString m.name), ("ports", .ofList Port.toJson m.ports),
    ("signals", .ofList Signal.toJson m.signals),
    ("instances", .ofList Instance.toJson m.instances),
    ("parameters", .ofList Param.toJson m.parameters),
    ("literals", .ofList Json.ofString m.literals)]

def decode : Decoder Module :=
  .record ["name", "ports", "signals", "instances", "parameters", "literals"] fun
    | depth, [name, ports, signals, instances, parameters, literals] => do
      let name ← Decoder.required .text depth name
      let ports ← Decoder.orElse [] (.list Port.decode) depth ports
      let signals ← Decoder.orElse [] (.list Signal.decode) depth signals
      let instances ← Decoder.orElse [] (.list Instance.decode) depth instances
      let parameters ← Decoder.orElse [] (.list Param.decode) depth parameters
      let literals ← Decoder.orElse [] (.list .text) depth literals
      return { name, ports, signals, instances, parameters, literals }
    | _, _ => none

end Module

namespace ExternalModule

def toJson (m : ExternalModule) : Json :=
  .ofFields ([("name", m.name.toJson)] ++ optionalField "desc" m.description
    ++ [("ports", .ofList Port.toJson m.ports), ("signals", .ofList Signal.toJson m.signals),
      ("parameters", .ofList Param.toJson m.parameters), ("spicetype", m.kind.toJson)])

def decode : Decoder ExternalModule :=
  .record ["name", "desc", "ports", "signals", "parameters", "spicetype"] fun
    | depth, [name, description, ports, signals, parameters, kind] => do
      let name ← Decoder.required QualifiedName.decode depth name
      let description ← Decoder.orElse none (.optional .text) depth description
      let ports ← Decoder.orElse [] (.list Port.decode) depth ports
      let signals ← Decoder.orElse [] (.list Signal.decode) depth signals
      let parameters ← Decoder.orElse [] (.list Param.decode) depth parameters
      let kind ← Decoder.orElse .subcircuit ElementKind.decode depth kind
      return { name, description, ports, signals, parameters, kind }
    | _, _ => none

end ExternalModule

namespace Package

def toJson (p : Package) : Json :=
  .ofFields ([("domain", .ofString p.domain)] ++ optionalField "desc" p.description
    ++ [("modules", .ofList Module.toJson p.modules),
      ("ext_modules", .ofList ExternalModule.toJson p.externals)])

def decode : Decoder Package :=
  .record ["domain", "desc", "modules", "ext_modules"] fun
    | depth, [domain, description, modules, externals] => do
      let domain ← Decoder.orElse "" .text depth domain
      let description ← Decoder.orElse none (.optional .text) depth description
      let modules ← Decoder.orElse [] (.list Module.decode) depth modules
      let externals ← Decoder.orElse [] (.list ExternalModule.decode) depth externals
      return { domain, description, modules, externals }
    | _, _ => none

/-- The package's JSON text, one item a line. -/
def toJsonText (p : Package) : String :=
  p.toJson.prettyText

/-- The package of a JSON text. -/
def ofJsonText? (text : String) : Option Package :=
  (Json.parse? text).bind (decode jsonDepthLimit)

end Package

end CircuitNetlist
