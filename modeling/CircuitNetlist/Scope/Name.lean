/-!
# Netlist names of modules

A module's netlist name is the part of its name behind the last dot, with an underscore for
every character that is no ASCII letter, digit or underscore.
-/
namespace CircuitNetlist

/-- ASCII letters, digits and the underscore. -/
def isWordChar (c : Char) : Bool :=
  c.isAlphanum || c = '_'

/-- The characters behind the last dot. -/
def afterLastDot (cs : List Char) : List Char :=
  (cs.reverse.takeWhile (· ≠ '.')).reverse

/-- The netlist name of a module. -/
def sanitize (name : String) : String :=
  String.ofList ((afterLastDot name.toList).map fun c => if isWordChar c then c else '_')

end CircuitNetlist
