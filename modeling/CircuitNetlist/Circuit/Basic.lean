import CircuitNetlist.Circuit.Element
import CircuitNetlist.Circuit.Value

/-!
# Circuits

A package is an ordered list of modules and of the external modules they refer to. A module
declares ports and signals and holds instances of other modules, whose ports are connected to
signals, to bit ranges of signals, or to concatenations of these.
-/
namespace CircuitNetlist

/-- A module name qualified by its domain. -/
structure QualifiedName where
  domain : String
  name : String
deriving DecidableEq, Repr, Inhabited

def QualifiedName.text (q : QualifiedName) : String :=
  q.domain ++ "." ++ q.name

inductive Direction where
  | input
  | output
  | inout
  | undirected
deriving DecidableEq, Repr, Inhabited

def Direction.all : List Direction :=
  [.input, .output, .inout, .undirected]

/-- A port refers to one of the module's signals by name. -/
structure Port where
  signal : String
  direction : Direction := .undirected
deriving DecidableEq, Repr, Inhabited

/-- A wire, or a bus if it is more than one bit wide. -/
structure Signal where
  name : String
  width : UInt64
deriving DecidableEq, Repr, Inhabited

/-- A wire of one bit. -/
def Signal.scalar (name : String) : Signal :=
  { name, width := 1 }

/-- The bits of a signal from `top` down to `bottom`, both included. -/
structure Slice where
  signal : String
  top : UInt64
  bottom : UInt64
deriving DecidableEq, Repr, Inhabited

/-- What a port can be connected to. -/
inductive Target where
  | signal (name : String)
  | slice (range : Slice)
  | concat (parts : List Target)
deriving Repr, Inhabited

mutual

/-- Equality of targets is decided part by part. -/
def Target.decEq : (a b : Target) → Decidable (a = b)
  | .signal a, .signal b => if h : a = b then isTrue (by rw [h]) else isFalse (by simp [h])
  | .slice a, .slice b => if h : a = b then isTrue (by rw [h]) else isFalse (by simp [h])
  | .concat a, .concat b =>
    match Target.decEqList a b with
    | isTrue h => isTrue (by rw [h])
    | isFalse h => isFalse (by simp [h])
  | .signal _, .slice _ => isFalse (by simp)
  | .signal _, .concat _ => isFalse (by simp)
  | .slice _, .signal _ => isFalse (by simp)
  | .slice _, .concat _ => isFalse (by simp)
  | .concat _, .signal _ => isFalse (by simp)
  | .concat _, .slice _ => isFalse (by simp)

def Target.decEqList : (as bs : List Target) → Decidable (as = bs)
  | [], [] => isTrue rfl
  | [], _ :: _ => isFalse (by simp)
  | _ :: _, [] => isFalse (by simp)
  | a :: as, b :: bs =>
    match Target.decEq a b, Target.decEqList as bs with
    | isTrue h, isTrue hs => isTrue (by rw [h, hs])
    | isFalse h, _ => isFalse (by simp [h])
    | _, isFalse hs => isFalse (by simp [hs])

end

instance : DecidableEq Target :=
  Target.decEq

/-- The binding of one port of an instance. -/
structure Connection where
  port : String
  target : Target
deriving DecidableEq, Repr

/-- What an instance is an instance of. -/
inductive Reference where
  /-- A module of the same package. -/
  | internal (name : String)
  /-- An external module or a built-in primitive. -/
  | external (name : QualifiedName)
deriving DecidableEq, Repr, Inhabited

def Reference.text : Reference → String
  | .internal name => name
  | .external name => name.text

structure Instance where
  name : String
  reference : Reference
  /-- Parameter overrides. -/
  parameters : List Param := []
  connections : List Connection := []
deriving DecidableEq, Repr

namespace Instance

/-- The instance with one more override. -/
def override (i : Instance) (name : String) (value : Value) : Instance :=
  { i with parameters := i.parameters ++ [.withValue name value] }

/-- The instance with one more connected port. -/
def connect (i : Instance) (port : String) (target : Target) : Instance :=
  { i with connections := i.connections ++ [{ port, target }] }

end Instance

/-- A module defined in a package, netlisted as a subcircuit. -/
structure Module where
  name : String := ""
  ports : List Port := []
  /-- All signals, those of the ports included. -/
  signals : List Signal := []
  instances : List Instance := []
  /-- The declared parameters with their defaults. -/
  parameters : List Param := []
  /-- Lines copied into the netlist after the instances. -/
  literals : List String := []
deriving DecidableEq, Repr, Inhabited

namespace Module

/-- The module with one more port, and the signal it stands for. -/
def withBusPort (m : Module) (name : String) (width : UInt64) (direction : Direction) : Module :=
  { m with
    signals := m.signals ++ [{ name, width }]
    ports := m.ports ++ [{ signal := name, direction }] }

def withPort (m : Module) (name : String) (direction : Direction) : Module :=
  m.withBusPort name 1 direction

/-- The module with one more signal that is not a port. -/
def withSignal (m : Module) (signal : Signal) : Module :=
  { m with signals := m.signals ++ [signal] }

def withParameter (m : Module) (param : Param) : Module :=
  { m with parameters := m.parameters ++ [param] }

def withInstance (m : Module) (i : Instance) : Module :=
  { m with instances := m.instances ++ [i] }

def withLiteral (m : Module) (line : String) : Module :=
  { m with literals := m.literals ++ [line] }

end Module

/-- A module defined elsewhere: a foreign subcircuit, a device model or a built-in primitive. -/
structure ExternalModule where
  name : QualifiedName
  description : Option String := none
  ports : List Port := []
  signals : List Signal := []
  parameters : List Param := []
  kind : ElementKind := .subcircuit
deriving DecidableEq, Repr, Inhabited

namespace ExternalModule

/-- The external module with one more port of one bit and no direction. -/
def withPort (m : ExternalModule) (name : String) : ExternalModule :=
  { m with
    signals := m.signals ++ [.scalar name]
    ports := m.ports ++ [{ signal := name }] }

def withParameter (m : ExternalModule) (param : Param) : ExternalModule :=
  { m with parameters := m.parameters ++ [param] }

end ExternalModule

structure Package where
  /-- The domain; empty for an anonymous package. -/
  domain : String := ""
  description : Option String := none
  /-- The modules, in dependency order. -/
  modules : List Module := []
  externals : List ExternalModule := []
deriving DecidableEq, Repr, Inhabited

namespace Package

/-- The first module of that name. -/
def module? (p : Package) (name : String) : Option Module :=
  p.modules.find? (·.name == name)

def withModule (p : Package) (m : Module) : Package :=
  { p with modules := p.modules ++ [m] }

def withExternal (p : Package) (m : ExternalModule) : Package :=
  { p with externals := p.externals ++ [m] }

end Package

end CircuitNetlist
