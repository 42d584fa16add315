import CircuitNetlist.Fault

/-!
# Dialects

A dialect is a format with a writer. Dialects of one family lay out modules and instances
alike; what differs within a family is here: comments, bus bits, expressions, scale letters.
-/
namespace CircuitNetlist

inductive Dialect where
  | spectre
  | spice
  | hspice
  | ngspice
  | xyce
  | verilog
deriving DecidableEq, Repr, Inhabited

inductive Family where
  | spice
  | spectre
  | verilog
deriving DecidableEq, Repr

namespace Dialect

def format : Dialect → Format
  | spectre => .spectre
  | spice => .spice
  | hspice => .hspice
  | ngspice => .ngspice
  | xyce => .xyce
  | verilog => .verilog

/-- The dialect of a format; one format has no writer. -/
def ofFormat : Format → Except Cause Dialect
  | .spectre => .ok spectre
  | .spice => .ok spice
  | .hspice => .ok hspice
  | .ngspice => .ok ngspice
  | .xyce => .ok xyce
  | .verilog => .ok verilog
  | .cdl => .error (.unsupported .cdl .netlisting)

def family : Dialect → Family
  | spice | hspice | ngspice | xyce => .spice
  | spectre => .spectre
  | verilog => .verilog

/-- The writer's name in the package header. -/
def writerName : Dialect → String
  | spectre => "SpectreNetlister"
  | spice => "SpiceNetlister"
  | hspice => "HspiceNetlister"
  | ngspice => "NgspiceNetlister"
  | xyce => "XyceNetlister"
  | verilog => "VerilogNetlister"

/-- What starts a comment line. -/
def commentMarker : Dialect → String
  | spice | hspice | ngspice => "*"
  | xyce => ";"
  | spectre | verilog => "//"

/-- A comment line. -/
def comment (d : Dialect) (text : String) : String :=
  if text.isEmpty then d.commentMarker else d.commentMarker ++ " " ++ text

/-- The name of one bit of a bus. -/
def busBit (d : Dialect) (name : String) (index : Nat) : String :=
  match d.family with
  | .spice | .spectre => s!"{name}_{index}"
  | .verilog => s!"{name}[{index}]"

/-- A literal as an expression. -/
def expression (d : Dialect) (text : String) : String :=
  match d with
  | spice | hspice | ngspice => "'" ++ text ++ "'"
  | xyce => "\x7b" ++ text ++ "\x7d"
  | spectre | verilog => text

/-- The keyword in front of subcircuit parameters. -/
def paramsKeyword : Dialect → Option String
  | xyce => some "PARAMS:"
  | spectre | spice | hspice | ngspice | verilog => none

/-- The scale letters of the Spice family; their case has no meaning, so mega is not `m`. -/
def spiceLetters : SiScale → Option String
  | .femto => some "f"
  | .pico => some "p"
  | .nano => some "n"
  | .micro => some "u"
  | .milli => some "m"
  | .unit => some ""
  | .kilo => some "k"
  | .mega => some "meg"
  | .giga => some "g"
  | .tera => some "t"
  | _ => none

def spectreLetters : SiScale → Option String
  | .atto => some "a"
  | .femto => some "f"
  | .pico => some "p"
  | .nano => some "n"
  | .micro => some "u"
  | .milli => some "m"
  | .unit => some ""
  | .kilo => some "K"
  | .mega => some "M"
  | .giga => some "G"
  | .tera => some "T"
  | .peta => some "P"
  | _ => none

def scaleLetters (d : Dialect) (scale : SiScale) : Option String :=
  match d.family with
  | .spice => spiceLetters scale
  | .spectre => spectreLetters scale
  | .verilog => none

/-- What is written behind a mantissa: scale letters, or an exponent where there are none. -/
def scaleText (d : Dialect) (scale : SiScale) : String :=
  match d.scaleLetters scale with
  | some letters => letters
  | none => if scale = .unit then "" else s!"e{scale.exponent}"

/-- The comment behind the instance of the top module. -/
def topComment : Dialect → Option String
  | spectre | ngspice => some "// Top-Level DUT"
  | xyce => some "; Top-Level DUT"
  | hspice => some "$ Top-Level DUT"
  | spice | verilog => none

end Dialect

end CircuitNetlist
