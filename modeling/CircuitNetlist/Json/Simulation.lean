import CircuitNetlist.Json.Circuit
import CircuitNetlist.Simulation.Basic

/-!
# The interchange format of simulation inputs

As for circuits, with one addition: the initial conditions of a transient analysis are an
object that maps nodes to values. A repeated node keeps its first place and its last value.
-/
namespace CircuitNetlist

namespace SimulatorOption

def toJson (o : SimulatorOption) : Json :=
  .ofFields [("name", .ofString o.name), ("value", o.value.toJson)]

def decode : Decoder SimulatorOption :=
  .record ["name", "value"] fun
    | depth, [name, value] => do
      let name ← Decoder.required .text depth name
      let value ← Decoder.required Value.decode depth value
      return { name, value }
    | _, _ => none

end SimulatorOption

namespace FileInclude

def toJson (card : FileInclude) : Json :=
  .ofFields [("path", .ofString card.path)]

def decode : Decoder FileInclude :=
  .record ["path"] fun
    | depth, [path] => do
      let path ← Decoder.required .text depth path
      return { path }
    | _, _ => none

end FileInclude

namespace LibraryInclude

def toJson (card : LibraryInclude) : Json :=
  .ofFields [("path", .ofString card.path), ("section", .ofString card.sectionName)]

def decode : Decoder LibraryInclude :=
  .record ["path", "section"] fun
    | depth, [path, sectionName] => do
      let path ← Decoder.required .text depth path
      let sectionName ← Decoder.required .text depth sectionName
      return { path, sectionName }
    | _, _ => none

end LibraryInclude

namespace SaveMode

/-- The name in the interchange format. -/
def code : SaveMode → String
  | nothing => "none"
  | everything => "all"

def toJson (m : SaveMode) : Json :=
  .ofString m.code

def decode : Decoder SaveMode :=
  .choice (namedBy code all)

end SaveMode

namespace Save

def toJson : Save → Json
  | mode m => .tagged "mode" m.toJson
  | signal name => .tagged "signal" (.ofString name)

def decode : Decoder Save :=
  .variant [("mode", fun depth j => (SaveMode.decode depth j).map mode),
    ("signal", fun depth j => (Decoder.text depth j).map signal)]

end Save

namespace Measurement

def toJson (m : Measurement) : Json :=
  .ofFields [("analysis_type", .ofString m.analysis), ("name", .ofString m.name),
    ("expr", .ofString m.expression)]

def decode : Decoder Measurement :=
  .record ["analysis_type", "name", "expr"] fun
    | depth, [analysis, name, expression] => do
      let analysis ← Decoder.required .text depth analysis
      let name ← Decoder.required .text depth name
      let expression ← Decoder.required .text depth expression
      return { analysis, name, expression }
    | _, _ => none

end Measurement

namespace Control

def toJson : Control → Json
  | file card => .tagged "include" card.toJson
  | library card => .tagged "lib" card.toJson
  | save card => .tagged "save" card.toJson
  | measure card => .tagged "meas" card.toJson
  | param card => .tagged "param" card.toJson
  | literal line => .tagged "literal" (.ofString line)

def decode : Decoder Control :=
  .variant [("include", fun depth j => (FileInclude.decode depth j).map file),
    ("lib", fun depth j => (LibraryInclude.decode depth j).map library),
    ("save", fun depth j => (Save.decode depth j).map save),
    ("meas", fun depth j => (Measurement.decode depth j).map measure),
    ("param", fun depth j => (Param.decode depth j).map param),
    ("literal", fun depth j => (Decoder.text depth j).map literal)]

end Control

namespace LinearSweep

def toJson (s : LinearSweep) : Json :=
  .ofFields [("start", .ofDouble s.start), ("stop", .ofDouble s.stop), ("step", .ofDouble s.step)]

def decode : Decoder LinearSweep :=
  .record ["start", "stop", "step"] fun
    | depth, [start, stop, step] => do
      let start ← Decoder.required .double depth start
      let stop ← Decoder.required .double depth stop
      let step ← Decoder.required .double depth step
      return { start, stop, step }
    | _, _ => none

end LinearSweep

namespace DecadeSweep

def toJson (s : DecadeSweep) : Json :=
  .ofFields [("start", .ofDouble s.start), ("stop", .ofDouble s.stop),
    ("npts", .ofInt s.pointsPerDecade.toNat)]

def decode : Decoder DecadeSweep :=
  .record ["start", "stop", "npts"] fun
    | depth, [start, stop, points] => do
      let start ← Decoder.required .double depth start
      let stop ← Decoder.required .double depth stop
      let pointsPerDecade ← Decoder.required .uint64 depth points
      return { start, stop, pointsPerDecade }
    | _, _ => none

end DecadeSweep

namespace PointSweep

def toJson (s : PointSweep) : Json :=
  .ofFields [("points", .ofList Json.ofDouble s.points)]

def decode : Decoder PointSweep :=
  .record ["points"] fun
    | depth, [points] => do
      let points ← Decoder.required (.list .double) depth points
      return { points }
    | _, _ => none

end PointSweep

namespace Sweep

def toJson : Sweep → Json
  | linear s => .tagged "linear" s.toJson
  | decade s => .tagged "log" s.toJson
  | points s => .tagged "points" s.toJson

def decode : Decoder Sweep :=
  .variant [("linear", fun depth j => (LinearSweep.decode depth j).map linear),
    ("log", fun depth j => (DecadeSweep.decode depth j).map decade),
    ("points", fun depth j => (PointSweep.decode depth j).map points)]

end Sweep

/-- The controls of one analysis, which may be missing. -/
def decodeControls (depth : Nat) (found : Option Json) : Option (List Control) :=
  Decoder.orElse [] (.list Control.decode) depth found

namespace OperatingPoint

def toJson (a : OperatingPoint) : Json :=
  .ofFields [("analysis_name", .ofString a.name), ("ctrls", .ofList Control.toJson a.controls)]

def decode : Decoder OperatingPoint :=
  .record ["analysis_name", "ctrls"] fun
    | depth, [name, controls] => do
      let name ← Decoder.required .text depth name
      let controls ← decodeControls depth controls
      return { name, controls }
    | _, _ => none

end OperatingPoint

namespace DcAnalysis

def toJson (a : DcAnalysis) : Json :=
  .ofFields [("analysis_name", .ofString a.name), ("indep_name", .ofString a.swept),
    ("sweep", a.sweep.toJson), ("ctrls", .ofList Control.toJson a.controls)]

def decode : Decoder DcAnalysis :=
  .record ["analysis_name", "indep_name", "sweep", "ctrls"] fun
    | depth, [name, swept, sweep, controls] => do
      let name ← Decoder.required .text depth name
      let swept ← Decoder.required .text depth swept
      let sweep ← Decoder.required Sweep.decode depth sweep
      let controls ← decodeControls depth controls
      return { name, swept, sweep, controls }
    | _, _ => none

end DcAnalysis

namespace AcAnalysis

def toJson (a : AcAnalysis) : Json :=
  .ofFields [("analysis_name", .ofString a.name), ("fstart", .ofDouble a.start),
    ("fstop", .ofDouble a.stop), ("npts", .ofInt a.pointsPerDecade.toNat),
    ("ctrls", .ofList Control.toJson a.controls)]

def decode : Decoder AcAnalysis :=
  .record ["analysis_name", "fstart", "fstop", "npts", "ctrls"] fun
    | depth, [name, start, stop, points, controls] => do
      let name ← Decoder.required .text depth name
      let start ← Decoder.required .double depth start
      let stop ← Decoder.required .double depth stop
      let pointsPerDecade ← Decoder.required .uint64 depth points
      let controls ← decodeControls depth controls
      return { name, start, stop, pointsPerDecade, controls }
    | _, _ => none

end AcAnalysis

/-- The table with the value of one node set: a new node goes to the end. -/
def setInitial (table : List (String × Double)) (node : String) (x : Double) :
    List (String × Double) :=
  if table.any (·.1 == node) then
    table.map fun entry => if entry.1 == node then (node, x) else entry
  else table ++ [(node, x)]

/-- Initial conditions, as an object from nodes to values. -/
def decodeInitial : Decoder (List (String × Double))
  | depth + 1, .object fields => do
    let entries ← fields.mapM fun (node, j) => do
      return (← node, ← Decoder.double depth j)
    return entries.foldl (fun table entry => setInitial table entry.1 entry.2) []
  | _, _ => none

namespace TransientAnalysis

def toJson (a : TransientAnalysis) : Json :=
  .ofFields [("analysis_name", .ofString a.name), ("tstop", .ofDouble a.stop),
    ("tstep", .ofDouble a.step),
    ("ic", .ofFields (a.initial.map fun entry => (entry.1, .ofDouble entry.2))),
    ("ctrls", .ofList Control.toJson a.controls)]

def decode : Decoder TransientAnalysis :=
  .record ["analysis_name", "tstop", "tstep", "ic", "ctrls"] fun
    | depth, [name, stop, step, initial, controls] => do
      let name ← Decoder.required .text depth name
      let stop ← Decoder.required .double depth stop
      let step ← Decoder.required .double depth step
      let initial ← Decoder.orElse [] decodeInitial depth initial
      let controls ← decodeControls depth controls
      return { name, stop, step, initial, controls }
    | _, _ => none

end TransientAnalysis

namespace NoiseAnalysis

def toJson (a : NoiseAnalysis) : Json :=
  .ofFields [("analysis_name", .ofString a.name), ("output_p", .ofString a.outputPositive),
    ("output_n", .ofString a.outputNegative), ("input_source", .ofString a.inputSource),
    ("fstart", .ofDouble a.start), ("fstop", .ofDouble a.stop),
    ("npts", .ofInt a.pointsPerDecade.toNat), ("ctrls", .ofList Control.toJson a.controls)]

def decode : Decoder NoiseAnalysis :=
  .record ["analysis_name", "output_p", "output_n", "input_source", "fstart", "fstop", "npts",
      "ctrls"] fun
    | depth, [name, positive, negative, source, start, stop, points, controls] => do
      let name ← Decoder.required .text depth name
      let outputPositive ← Decoder.required .text depth positive
      let outputNegative ← Decoder.orElse "" .text depth negative
      let inputSource ← Decoder.required .text depth source
      let start ← Decoder.required .double depth start
      let stop ← Decoder.required .double depth stop
      let pointsPerDecade ← Decoder.required .uint64 depth points
      let controls ← decodeControls depth controls
      return { name, outputPositive, outputNegative, inputSource, start, stop, pointsPerDecade,
               controls }
    | _, _ => none

end NoiseAnalysis

namespace CustomAnalysis

def toJson (a : CustomAnalysis) : Json :=
  .ofFields [("analysis_name", .ofString a.name), ("cmd", .ofString a.command)]

def decode : Decoder CustomAnalysis :=
  .record ["analysis_name", "cmd"] fun
    | depth, [name, command] => do
      let name ← Decoder.required .text depth name
      let command ← Decoder.required .text depth command
      return { name, command }
    | _, _ => none

end CustomAnalysis

namespace Analysis

def toJson : Analysis → Json
  | operatingPoint a => .tagged "op" a.toJson
  | dc a => .tagged "dc" a.toJson
  | ac a => .tagged "ac" a.toJson
  | transient a => .tagged "tran" a.toJson
  | noise a => .tagged "noise" a.toJson
  | custom a => .tagged "custom" a.toJson

def decode : Decoder Analysis :=
  .variant [("op", fun depth j => (OperatingPoint.decode depth j).map operatingPoint),
    ("dc", fun depth j => (DcAnalysis.decode depth j).map dc),
    ("ac", fun depth j => (AcAnalysis.decode depth j).map ac),
    ("tran", fun depth j => (TransientAnalysis.decode depth j).map transient),
    ("noise", fun depth j => (NoiseAnalysis.decode depth j).map noise),
    ("custom", fun depth j => (CustomAnalysis.decode depth j).map custom)]

end Analysis

namespace SimulationInput

def toJson (s : SimulationInput) : Json :=
  .ofFields [("pkg", s.package.toJson), ("top", .ofString s.top),
    ("opts", .ofList SimulatorOption.toJson s.options),
    ("an", .ofList Analysis.toJson s.analyses),
    ("ctrls", .ofList Control.toJson s.controls)]

def decode : Decoder SimulationInput :=
  .record ["pkg", "top", "opts", "an", "ctrls"] fun
    | depth, [package, top, options, analyses, controls] => do
      let package ← Decoder.required Package.decode depth package
      let top ← Decoder.required .text depth top
      let options ← Decoder.orElse [] (.list SimulatorOption.decode) depth options
      let analyses ← Decoder.orElse [] (.list Analysis.decode) depth analyses
      let controls ← decodeControls depth controls
      return { package, top, options, analyses, controls }
    | _, _ => none

/-- The input's JSON text, without blanks. -/
def toJsonText (s : SimulationInput) : String :=
  s.toJson.compactText

/-- The simulation input of a JSON text. -/
def ofJsonText? (text : String) : Option SimulationInput :=
  (Json.parse? text).bind (decode jsonDepthLimit)

end SimulationInput

end CircuitNetlist
