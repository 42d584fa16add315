import CircuitNetlist.Netlist.Script
import CircuitNetlist.Simulation.Basic

/-!
# Writing control cards and options

A card is one line, apart from a measurement in Spectre, which has to switch the language for
it. A card that the dialect does not have is a fault, never left out.
-/
namespace CircuitNetlist

/-- The fault of a feature that the dialect does not have. -/
def Dialect.unsupported (d : Dialect) (feature : Feature) : Cause :=
  .unsupported d.format feature

namespace Control

def fileText (d : Dialect) (card : FileInclude) : Except Cause String :=
  match d with
  | .spectre => .ok s!"include \"{card.path}\""
  | .xyce => .ok s!".include '{card.path}'"
  | .spice | .hspice | .ngspice => .ok s!".include \"{card.path}\""
  | .verilog => .error (d.unsupported .fileInclude)

def libraryText (d : Dialect) (card : LibraryInclude) : Except Cause String :=
  match d with
  | .spectre => .ok s!"include \"{card.path}\" section={card.sectionName}"
  | .xyce => .ok s!".lib {card.path} {card.sectionName}"
  | .spice | .hspice | .ngspice => .ok s!".lib \"{card.path}\" {card.sectionName}"
  | .verilog => .error (d.unsupported .libraryInclude)

def paramText (d : Dialect) (p : Param) : Except Cause String := do
  match p.value with
  | none => throw (.invalidValue p.name .controlWithoutValue)
  | some value =>
    let text := (← CircuitNetlist.paramText d p.name value).render d
    match d with
    | .spectre => return s!"parameters {p.name}={text}"
    | .spice | .hspice | .ngspice | .xyce => return s!".param {p.name}={text}"
    | .verilog => throw (d.unsupported .parameterControls)

def measureTexts (d : Dialect) (m : Measurement) : Except Cause (List String) :=
  let text := s!".meas {m.analysis} {m.name} {m.expression}"
  match d with
  | .spectre => .ok ["simulator lang=spice", text, "simulator lang=spectre"]
  | .spice | .hspice | .ngspice | .xyce => .ok [text]
  | .verilog => .error (d.unsupported .measurements)

def saveText (d : Dialect) (s : Save) : Except Cause String :=
  match d, s with
  | .ngspice, .mode .everything => .ok ".save all"
  | .ngspice, .signal name => .ok s!".save {name}"
  | .ngspice, .mode .nothing => .error (d.unsupported .savingNothing)
  | _, _ => .error (d.unsupported .saveControls)

/-- The lines of a card. -/
def texts (d : Dialect) : Control → Except Cause (List String)
  | file card => do return [← fileText d card]
  | library card => do return [← libraryText d card]
  | param p => do return [← paramText d p]
  | measure m => measureTexts d m
  | save s => do return [← saveText d s]
  | literal line => .ok [line]

/-- Writes a card. -/
def script (d : Dialect) (c : Control) : Script Unit := do
  let texts ← Script.check (c.texts d)
  Script.writeAll (texts.map (.text 0))

end Control

namespace SimulatorOption

/-- The line of an option; its value is looked at first. -/
def text (d : Dialect) (o : SimulatorOption) : Except Cause String := do
  let value := (← paramText d o.name o.value).render d
  match d with
  | .spice | .hspice | .ngspice => return s!".option {o.name}={value}"
  | .spectre | .xyce | .verilog => throw (d.unsupported .simulatorOptions)

/-- Writes an option. -/
def script (d : Dialect) (o : SimulatorOption) : Script Unit := do
  Script.write (.text 0 (← Script.check (o.text d)))

end SimulatorOption

end CircuitNetlist
