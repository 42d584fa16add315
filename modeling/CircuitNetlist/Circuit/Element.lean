/-!
# Element kinds

Every module from outside a package is netlisted as one kind of element. In the Spice family
the kind fixes the first letter of an instance's name.
-/
namespace CircuitNetlist

inductive ElementKind where
  | subcircuit
  | resistor
  | capacitor
  | inductor
  | mos
  | diode
  | bipolar
  | voltageSource
  | currentSource
  | vcvs
  | vccs
  | cccs
  | ccvs
  | transmissionLine
deriving DecidableEq, Repr, Inhabited

namespace ElementKind

def all : List ElementKind :=
  [subcircuit, resistor, capacitor, inductor, mos, diode, bipolar, voltageSource, currentSource,
    vcvs, vccs, cccs, ccvs, transmissionLine]

/-- The letter that starts the name of an instance of this kind. -/
def letter : ElementKind → Char
  | subcircuit => 'x'
  | resistor => 'r'
  | capacitor => 'c'
  | inductor => 'l'
  | mos => 'm'
  | diode => 'd'
  | bipolar => 'q'
  | voltageSource => 'v'
  | currentSource => 'i'
  | vcvs => 'e'
  | vccs => 'g'
  | cccs => 'f'
  | ccvs => 'h'
  | transmissionLine => 'o'

/-- Instances of these kinds refer to a model card. -/
def isModelBased : ElementKind → Bool
  | mos | diode | bipolar | transmissionLine => true
  | _ => false

/-- The name used in messages. -/
def title : ElementKind → String
  | subcircuit => "SUBCKT"
  | resistor => "RESISTOR"
  | capacitor => "CAPACITOR"
  | inductor => "INDUCTOR"
  | mos => "MOS"
  | diode => "DIODE"
  | bipolar => "BIPOLAR"
  | voltageSource => "VSOURCE"
  | currentSource => "ISOURCE"
  | vcvs => "VCVS"
  | vccs => "VCCS"
  | cccs => "CCCS"
  | ccvs => "CCVS"
  | transmissionLine => "TLINE"

end ElementKind

end CircuitNetlist
