/-!
# Output formats

The formats that can be asked for. Not every one of them has a writer.
-/
namespace CircuitNetlist

inductive Format where
  | spectre
  | spice
  | hspice
  | ngspice
  | xyce
  | cdl
  | verilog
deriving DecidableEq, Repr, Inhabited

namespace Format

def all : List Format :=
  [spectre, spice, hspice, ngspice, xyce, cdl, verilog]

def name : Format → String
  | spectre => "spectre"
  | spice => "spice"
  | hspice => "hspice"
  | ngspice => "ngspice"
  | xyce => "xyce"
  | cdl => "cdl"
  | verilog => "verilog"

/-- The format of that name; names are in lower case. -/
def ofName? (s : String) : Option Format :=
  all.find? (·.name == s)

end Format

end CircuitNetlist
