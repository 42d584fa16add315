import CircuitNetlist.Decimal.Double

/-!
# Parameter values

A value is a number, a number with an SI scale, a quoted text, or a literal such as an
expression that is written as it stands. Integers are the sixty-four bit ones of the interchange
format.
-/
namespace CircuitNetlist

/-- The SI scales, yocto to yotta. -/
inductive SiScale where
  | yocto
  | zepto
  | atto
  | femto
  | pico
  | nano
  | micro
  | milli
  | centi
  | deci
  | unit
  | deca
  | hecto
  | kilo
  | mega
  | giga
  | tera
  | peta
  | exa
  | zetta
  | yotta
deriving DecidableEq, Repr, Inhabited

namespace SiScale

def all : List SiScale :=
  [yocto, zepto, atto, femto, pico, nano, micro, milli, centi, deci, unit, deca, hecto, kilo, mega,
    giga, tera, peta, exa, zetta, yotta]

/-- The power of ten that the scale stands for. -/
def exponent : SiScale → Int
  | yocto => -24
  | zepto => -21
  | atto => -18
  | femto => -15
  | pico => -12
  | nano => -9
  | micro => -6
  | milli => -3
  | centi => -2
  | deci => -1
  | unit => 0
  | deca => 1
  | hecto => 2
  | kilo => 3
  | mega => 6
  | giga => 9
  | tera => 12
  | peta => 15
  | exa => 18
  | zetta => 21
  | yotta => 24

end SiScale

/-- The number in front of a scale; a text is kept as it was given. -/
inductive Mantissa where
  | int (value : Int64)
  | double (value : Double)
  | text (value : String)
deriving DecidableEq, Repr

/-- A mantissa with an SI scale. -/
structure Scaled where
  scale : SiScale
  mantissa : Mantissa
deriving DecidableEq, Repr

inductive Value where
  | int (value : Int64)
  | double (value : Double)
  /-- A text, written in double quotes. -/
  | text (value : String)
  /-- Netlist text taken as it is, typically an expression. -/
  | literal (value : String)
  | scaled (value : Scaled)
deriving DecidableEq, Repr

/-- A named parameter: a declaration with an optional default, or an override on an instance.
A declaration without a default makes the parameter mandatory. -/
structure Param where
  name : String
  value : Option Value := none
  description : Option String := none
deriving DecidableEq, Repr

namespace Param

/-- A declaration without a default. -/
def required (name : String) : Param :=
  { name }

def withValue (name : String) (value : Value) : Param :=
  { name, value := some value }

end Param

end CircuitNetlist
