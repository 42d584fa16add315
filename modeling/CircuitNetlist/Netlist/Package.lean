import CircuitNetlist.Netlist.Module.Spectre
import CircuitNetlist.Netlist.Module.Spice
import CircuitNetlist.Netlist.Module.Verilog
import CircuitNetlist.Options

/-!
# Writing packages

A package is written as a header of comments and then module by module. Its external modules
are registered first, so that a clash of their names leaves no text.
-/
namespace CircuitNetlist

/-- Writes the definition of a module, in the layout of the dialect's family. -/
def Module.layout (d : Dialect) (m : Module) (name : String) (signals : SignalTable)
    (scope : Scope) : Script Scope :=
  match d.family with
  | .spice => Spice.moduleScript d m name signals scope
  | .spectre => Spectre.moduleScript d m name signals scope
  | .verilog => Verilog.moduleScript d m name signals scope

/-- Defines a module and writes it. The module's own instances may refer to it. -/
def Module.script (d : Dialect) (scope : Scope) (m : Module) : Script Scope :=
  Script.within (.moduleNamed m.name) do
    let (name, scope) ← Script.use (scope.define m)
    let signals ← Script.check (SignalTable.ofModule m)
    Script.log .debug s!"writing module `{name}` with {m.instances.length} instances"
    m.layout d name signals scope

/-- Registers an external module. -/
def ExternalModule.script (scope : Scope) (m : ExternalModule) : Script Scope := do
  Script.check (scope.checkUnregistered m.name)
  Script.log .debug s!"registering external module {m.name.text} ({m.kind.title})"
  let (_, scope) ← Script.use (scope.addExternal m)
  return scope

/-- Writing an external module registers it and does no more to the scope. -/
theorem ExternalModule.result_script (scope : Scope) (m : ExternalModule) :
    (m.script scope).result
      = ((scope.register m).1.map fun _ => (scope.register m).2).mapError .plain := by
  unfold ExternalModule.script Scope.register
  cases scope.checkUnregistered m.name with
  | error cause => rfl
  | ok _ => rcases scope.addExternal m with ⟨_ | _, after⟩ <;> rfl

namespace Package

/-- The comments at the top of a package. -/
def header (d : Dialect) (options : Options) (p : Package) : List String :=
  [if p.domain.isEmpty then "Anonymous circuit.Package" else "circuit.Package " ++ p.domain]
    ++ p.description.toList ++ ["Written by " ++ d.writerName] ++ options.header ++ [""]

def headerLines (d : Dialect) (options : Options) (p : Package) : List Line :=
  (p.header d options).map (.comment d 0) ++ [.blank 0]

/-- Writes a package. -/
def script (d : Dialect) (options : Options) (scope : Scope) (p : Package) : Script Scope := do
  let scope ← p.externals.foldlM ExternalModule.script scope
  Script.writeAll (p.headerLines d options)
  let scope ← p.modules.foldlM (Module.script d) scope
  Script.flush
  Script.log .info
    s!"wrote {p.modules.length} modules of package `{p.domain}` as {d.format.name}"
  return scope

end Package

end CircuitNetlist
