import CircuitNetlist.Circuit.Basic

/-!
# Simulation inputs

A simulation input is a package with a top module, simulator options, control cards and a list
of requested analyses.
-/
namespace CircuitNetlist

/-- A simulator option. -/
structure SimulatorOption where
  name : String
  value : Value
deriving DecidableEq, Repr

structure FileInclude where
  path : String
deriving DecidableEq, Repr

/-- One section of a library file. -/
structure LibraryInclude where
  path : String
  sectionName : String
deriving DecidableEq, Repr

inductive SaveMode where
  | nothing
  | everything
deriving DecidableEq, Repr, Inhabited

def SaveMode.all : List SaveMode :=
  [.nothing, .everything]

/-- Which signals a simulation keeps. -/
inductive Save where
  | mode (mode : SaveMode)
  | signal (name : String)
deriving DecidableEq, Repr

structure Measurement where
  /-- The kind of analysis that is measured. -/
  analysis : String
  name : String
  expression : String
deriving DecidableEq, Repr

/-- A control card. -/
inductive Control where
  | file (card : FileInclude)
  | library (card : LibraryInclude)
  | save (card : Save)
  | measure (card : Measurement)
  | param (card : Param)
  /-- A line of netlist text. -/
  | literal (line : String)
deriving DecidableEq, Repr

structure LinearSweep where
  start : Double
  stop : Double
  step : Double
deriving DecidableEq, Repr

/-- A sweep by decades. -/
structure DecadeSweep where
  start : Double
  stop : Double
  pointsPerDecade : UInt64
deriving DecidableEq, Repr

structure PointSweep where
  points : List Double
deriving DecidableEq, Repr

inductive Sweep where
  | linear (sweep : LinearSweep)
  | decade (sweep : DecadeSweep)
  | points (sweep : PointSweep)
deriving DecidableEq, Repr

structure OperatingPoint where
  name : String
  controls : List Control := []
deriving DecidableEq, Repr

structure DcAnalysis where
  name : String
  /-- The name of the parameter or source that is swept. -/
  swept : String
  sweep : Sweep
  controls : List Control := []
deriving DecidableEq, Repr

structure AcAnalysis where
  name : String
  start : Double
  stop : Double
  pointsPerDecade : UInt64
  controls : List Control := []
deriving DecidableEq, Repr

structure TransientAnalysis where
  name : String
  stop : Double
  step : Double
  /-- Initial node values; no node occurs twice. -/
  initial : List (String × Double) := []
  controls : List Control := []
deriving DecidableEq, Repr

structure NoiseAnalysis where
  name : String
  outputPositive : String
  /-- The negative output node; empty for ground. -/
  outputNegative : String := ""
  inputSource : String
  start : Double
  stop : Double
  pointsPerDecade : UInt64
  controls : List Control := []
deriving DecidableEq, Repr

/-- A statement of one particular simulator. -/
structure CustomAnalysis where
  name : String
  command : String
deriving DecidableEq, Repr

inductive Analysis where
  | operatingPoint (analysis : OperatingPoint)
  | dc (analysis : DcAnalysis)
  | ac (analysis : AcAnalysis)
  | transient (analysis : TransientAnalysis)
  | noise (analysis : NoiseAnalysis)
  | custom (analysis : CustomAnalysis)
deriving DecidableEq, Repr

namespace Analysis

def name : Analysis → String
  | operatingPoint a => a.name
  | dc a => a.name
  | ac a => a.name
  | transient a => a.name
  | noise a => a.name
  | custom a => a.name

/-- The controls that apply to this analysis alone. -/
def controls : Analysis → List Control
  | operatingPoint a => a.controls
  | dc a => a.controls
  | ac a => a.controls
  | transient a => a.controls
  | noise a => a.controls
  | custom _ => []

end Analysis

structure SimulationInput where
  package : Package
  /-- The name of the top module, which has exactly one port. -/
  top : String
  options : List SimulatorOption := []
  analyses : List Analysis := []
  controls : List Control := []
deriving DecidableEq, Repr

namespace SimulationInput

def withOption (s : SimulationInput) (name : String) (value : Value) : SimulationInput :=
  { s with options := s.options ++ [{ name, value }] }

def withAnalysis (s : SimulationInput) (a : Analysis) : SimulationInput :=
  { s with analyses := s.analyses ++ [a] }

def withControl (s : SimulationInput) (c : Control) : SimulationInput :=
  { s with controls := s.controls ++ [c] }

end SimulationInput

end CircuitNetlist
