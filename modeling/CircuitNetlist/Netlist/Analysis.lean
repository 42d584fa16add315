import CircuitNetlist.Netlist.Control

/-!
# Writing analyses

An analysis is one statement, or for the operating point in Xyce a sweep of one point over a
parameter made for it. Each dialect has its own selection of analyses and sweeps; one that it
does not have is a fault.
-/
namespace CircuitNetlist

namespace Analysis

/-- A number of an analysis, which has to be finite. -/
def number (analysis : String) (x : Double) : Except Cause String :=
  if x.isFinite then .ok x.text
  else .error (.invalidAnalysis analysis (.nonFinite x.text))

/-- A frequency range needs positive ends and at least one point a decade. -/
def checkFrequencies (analysis : String) (start stop : Double) (points : UInt64) :
    Except Cause Unit :=
  if start.atMostZero then throw (.invalidAnalysis analysis .startNotPositive)
  else if stop.atMostZero then throw (.invalidAnalysis analysis .stopNotPositive)
  else if points = 0 then throw (.invalidAnalysis analysis .pointsNotPositive)
  else pure ()

def operatingPointTexts (d : Dialect) (a : OperatingPoint) : Except Cause (List String) :=
  match d with
  | .spice | .hspice | .ngspice => .ok [".op"]
  | .xyce => .ok [s!".param _{a.name}_op=1", s!".dc _{a.name}_op 1 1 1"]
  | .spectre => .ok [s!"{a.name} dc oppoint=rawfile"]
  | .verilog => .error (d.unsupported .operatingPoint)

/-- The three numbers of a linear sweep. -/
def linearNumbers (analysis : String) (s : LinearSweep) :
    Except Cause (String × String × String) := do
  let start ← number analysis s.start
  let stop ← number analysis s.stop
  let step ← number analysis s.step
  return (start, stop, step)

def linearText (d : Dialect) (a : DcAnalysis) (s : LinearSweep) : Except Cause String := do
  match d with
  | .spice | .hspice | .ngspice =>
    let (start, stop, step) ← linearNumbers a.name s
    return s!".dc {a.swept} {start} {stop} {step}"
  | .xyce =>
    let (start, stop, step) ← linearNumbers a.name s
    return s!".dc LIN {a.swept} {start} {stop} {step}"
  | .spectre =>
    let (start, stop, step) ← linearNumbers a.name s
    return s!"{a.name} dc param={a.swept} start={start} stop={stop} step={step}"
  | .verilog => throw (d.unsupported .dcAnalysis)

def decadeText (d : Dialect) (a : DcAnalysis) (s : DecadeSweep) : Except Cause String := do
  match d with
  | .xyce =>
    let start ← number a.name s.start
    let stop ← number a.name s.stop
    return s!".dc DEC {a.swept} {start} {stop} {s.pointsPerDecade.toNat}"
  | .spice | .hspice | .ngspice | .spectre => throw (d.unsupported .dcDecadeSweeps)
  | .verilog => throw (d.unsupported .dcAnalysis)

def pointsText (d : Dialect) (a : DcAnalysis) (s : PointSweep) : Except Cause String := do
  match d with
  | .xyce =>
    let points ← s.points.mapM (number a.name)
    let list := " ".intercalate points
    return s!".dc {a.swept} LIST {list}"
  | .spectre =>
    let points ← s.points.mapM (number a.name)
    let list := " ".intercalate points
    return s!"{a.name} dc param={a.swept} values=[{list}]"
  | .spice | .hspice | .ngspice => throw (d.unsupported .dcPointSweeps)
  | .verilog => throw (d.unsupported .dcAnalysis)

def dcText (d : Dialect) (a : DcAnalysis) : Except Cause String :=
  match a.sweep with
  | .linear s => linearText d a s
  | .decade s => decadeText d a s
  | .points s => pointsText d a s

def acText (d : Dialect) (a : AcAnalysis) : Except Cause String := do
  checkFrequencies a.name a.start a.stop a.pointsPerDecade
  let start ← number a.name a.start
  let stop ← number a.name a.stop
  let points := a.pointsPerDecade.toNat
  match d with
  | .spice | .hspice | .ngspice => return s!".ac dec {points} {start} {stop}"
  | .xyce => return s!".ac DEC {points} {start} {stop}"
  | .spectre => return s!"{a.name} ac start={start} stop={stop} dec={points}"
  | .verilog => throw (d.unsupported .acAnalysis)

def transientText (d : Dialect) (a : TransientAnalysis) : Except Cause String := do
  if !a.initial.isEmpty then throw (d.unsupported .initialConditions)
  let step ← number a.name a.step
  let stop ← number a.name a.stop
  match d with
  | .spice | .hspice | .ngspice | .xyce => return s!".tran {step} {stop}"
  | .spectre => return s!"{a.name} tran stop={stop} step={step}"
  | .verilog => throw (d.unsupported .transientAnalysis)

/-- The voltage between the output nodes, which lie within the top instance. -/
def noiseOutput (a : NoiseAnalysis) : String :=
  if a.outputNegative.isEmpty then s!"v(xtop.{a.outputPositive})"
  else s!"v(xtop.{a.outputPositive},xtop.{a.outputNegative})"

def noiseText (d : Dialect) (a : NoiseAnalysis) : Except Cause String := do
  match d with
  | .ngspice =>
    checkFrequencies a.name a.start a.stop a.pointsPerDecade
    let start ← number a.name a.start
    let stop ← number a.name a.stop
    return s!".noise {noiseOutput a} v.xtop.v{a.inputSource} dec {a.pointsPerDecade.toNat} "
      ++ s!"{start} {stop}"
  | .spectre | .spice | .hspice | .xyce | .verilog => throw (d.unsupported .noiseAnalysis)

/-- The lines of an analysis. It needs a name, and no dialect has controls of one analysis. -/
def texts (d : Dialect) (a : Analysis) : Except Cause (List String) := do
  if a.name.isEmpty then throw (.invalidAnalysis "" .nameRequired)
  if !a.controls.isEmpty then throw (d.unsupported .analysisControls)
  match a with
  | operatingPoint a => operatingPointTexts d a
  | dc a => return [← dcText d a]
  | ac a => return [← acText d a]
  | transient a => return [← transientText d a]
  | noise a => return [← noiseText d a]
  | custom a => return [a.command]

/-- Writes an analysis. -/
def script (d : Dialect) (a : Analysis) : Script Unit := do
  let texts ← Script.check (a.texts d)
  Script.writeAll (texts.map (.text 0))

end Analysis

end CircuitNetlist
