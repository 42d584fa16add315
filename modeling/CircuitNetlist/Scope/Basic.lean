import CircuitNetlist.Circuit.Primitive
import CircuitNetlist.Scope.Name
import CircuitNetlist.Scope.NameTable

/-!
# Scopes

A scope holds what references can refer to: the modules defined so far, the registered external
modules, and the netlist names of both. External subcircuits share the subcircuit names with the
package's own modules; external modules of other kinds are models, with names of their own that are
not sanitized. Whatever is done with a scope gives what comes of it beside the scope that is left,
whether it has failed or not.
-/
namespace CircuitNetlist

/-- What the references of one netlist can refer to. -/
structure Scope where
  modules : List Module := []
  externals : List ExternalModule := []
  subcircuits : NameTable := { space := .subcircuit }
  models : NameTable := { space := .model }
deriving DecidableEq, Repr

/-- What a reference stands for. -/
inductive Resolved where
  /-- A module of the package, with its netlist name. -/
  | internal (definition : Module) (name : String)
  /-- An external subcircuit, with its netlist name. -/
  | external (definition : ExternalModule) (name : String)
  /-- An ideal element of the built-in table. -/
  | primitive (definition : ExternalModule)
  /-- A device that refers to a model card. -/
  | model (definition : ExternalModule) (name : String)
deriving DecidableEq, Repr

namespace Resolved

def ports : Resolved → List Port
  | internal m _ => m.ports
  | external m _ | primitive m | model m _ => m.ports

def parameters : Resolved → List Param
  | internal m _ => m.parameters
  | external m _ | primitive m | model m _ => m.parameters

/-- The name in messages. -/
def displayName : Resolved → String
  | internal _ name | external _ name | model _ name => name
  | primitive m => m.name.text

end Resolved

namespace Scope

def empty : Scope :=
  {}

/-- The module of that name, if it has been defined. -/
def module? (s : Scope) (name : String) : Option Module :=
  s.modules.find? (·.name == name)

/-- The external module of that name, if it has been registered. -/
def external? (s : Scope) (name : QualifiedName) : Option ExternalModule :=
  s.externals.find? (·.name == name)

/-- Claims the netlist name of an external module. -/
def claimExternal (s : Scope) (m : ExternalModule) : Except Cause String × Scope :=
  if m.kind = .subcircuit then
    let name := sanitize m.name.name
    let (claimed, subcircuits) := s.subcircuits.claim name (.external m.name)
    (claimed.map fun _ => name, { s with subcircuits })
  else
    let (claimed, models) := s.models.claim m.name.name (.external m.name)
    (claimed.map fun _ => m.name.name, { s with models })

/-- Refuses a name under which an external module is registered already. -/
def checkUnregistered (s : Scope) (name : QualifiedName) : Except Cause Unit :=
  if (s.external? name).isSome then throw (.duplicateExternal name) else pure ()

/-- Adds an external module that is not registered yet. -/
def addExternal (s : Scope) (m : ExternalModule) : Except Cause Unit × Scope :=
  match s.claimExternal m with
  | (.error cause, s) => (.error cause, s)
  | (.ok _, s) => (.ok (), { s with externals := m :: s.externals })

/-- Registers an external module. -/
def register (s : Scope) (m : ExternalModule) : Except Cause Unit × Scope :=
  match s.checkUnregistered m.name with
  | .error cause => (.error cause, s)
  | .ok () => s.addExternal m

/-- Defines a module, under its netlist name. -/
def define (s : Scope) (m : Module) : Except Cause String × Scope :=
  let name := sanitize m.name
  if (s.module? m.name).isSome then (.error (.duplicateModule name), s)
  else
    match s.subcircuits.claim name (.internal m.name) with
    | (.error cause, subcircuits) => (.error cause, { s with subcircuits })
    | (.ok (), subcircuits) => (.ok name, { s with modules := m :: s.modules, subcircuits })

/-- The ideal element of that name. -/
def resolvePrimitive (name : String) : Except Cause Resolved :=
  match Primitive.find? name with
  | none => throw (.undefinedPrimitive name)
  | some m =>
    if m.kind = .subcircuit || m.kind.isModelBased then throw (.invalidPrimitive name m.kind)
    else return .primitive m

/-- What a reference stands for. The netlist name of an external module is claimed at every use. -/
def resolve (s : Scope) : Reference → Except Cause Resolved × Scope
  | .internal name =>
    match s.module? name with
    | none => (.error (.undefinedModule name), s)
    | some m => (.ok (.internal m (sanitize m.name)), s)
  | .external name =>
    if name.domain = Primitive.idealDomain then (resolvePrimitive name.name, s)
    else if name.domain = Primitive.physicalDomain then (.error (.physicalPrimitive name.name), s)
    else
      match s.external? name with
      | none => (.error (.undefinedExternal name), s)
      | some m =>
        match s.claimExternal m with
        | (.error cause, s) => (.error cause, s)
        | (.ok name, s) =>
          (.ok (if m.kind = .subcircuit then .external m name else .model m name), s)

end Scope

end CircuitNetlist
