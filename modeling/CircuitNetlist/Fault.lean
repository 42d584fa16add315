import CircuitNetlist.Circuit.Basic
import CircuitNetlist.Format

/-!
# Faults

A fault is a cause, with the places around it that it was met in: the module that was being written,
and the instance within it. Every fault ends the current write. Message texts are all here.
-/
namespace CircuitNetlist

/-- The two tables of netlist names. -/
inductive NameSpace where
  | subcircuit
  | model
deriving DecidableEq, Repr

def NameSpace.text : NameSpace → String
  | .subcircuit => "subcircuit"
  | .model => "model"

/-- Who holds a netlist name. -/
inductive NameOwner where
  | internal (name : String)
  | external (name : QualifiedName)
deriving DecidableEq, Repr

def NameOwner.text : NameOwner → String
  | .internal name => s!"module `{name}`"
  | .external name => s!"external module `{name.text}`"

/-- Something that a format may be unable to express. -/
inductive Feature where
  | netlisting
  | primitiveInstances (name : QualifiedName)
  | modelInstances (model : String)
  | simulationInput
  | simulatorOptions
  | fileInclude
  | libraryInclude
  | parameterControls
  | measurements
  | savingNothing
  | saveControls
  | analysisControls
  | operatingPoint
  | dcAnalysis
  | dcDecadeSweeps
  | dcPointSweeps
  | acAnalysis
  | transientAnalysis
  | initialConditions
  | noiseAnalysis
deriving DecidableEq, Repr

def Feature.text : Feature → String
  | .netlisting => "netlisting"
  | .primitiveInstances name => s!"instances of primitive `{name.text}`"
  | .modelInstances model => s!"instances of device model `{model}`"
  | .simulationInput => "simulation input"
  | .simulatorOptions => "simulator options"
  | .fileInclude => "include"
  | .libraryInclude => "library include"
  | .parameterControls => "parameter controls"
  | .measurements => "measurements"
  | .savingNothing => "saving no signals"
  | .saveControls => "save controls"
  | .analysisControls => "per-analysis controls"
  | .operatingPoint => "operating point analysis"
  | .dcAnalysis => "DC analysis"
  | .dcDecadeSweeps => "DC log sweeps"
  | .dcPointSweeps => "DC point sweeps"
  | .acAnalysis => "AC analysis"
  | .transientAnalysis => "transient analysis"
  | .initialConditions => "transient initial conditions"
  | .noiseAnalysis => "noise analysis"

/-- Why a parameter value cannot be written. -/
inductive ValueFault where
  | nonFiniteDouble
  | nonFiniteMantissa
  | mantissaNotNumber
  | exponentTwice
  | overrideWithoutValue
  | controlWithoutValue
deriving DecidableEq, Repr

def ValueFault.text : ValueFault → String
  | .nonFiniteDouble => "non-finite double"
  | .nonFiniteMantissa => "non-finite mantissa"
  | .mantissaNotNumber => "mantissa is not a number"
  | .exponentTwice => "exponent mantissa cannot take an exponent prefix"
  | .overrideWithoutValue => "override has no value"
  | .controlWithoutValue => "parameter control has no value"

/-- Why an analysis cannot be written. -/
inductive AnalysisFault where
  | nameRequired
  /-- A number that is none, by its text. -/
  | nonFinite (text : String)
  | startNotPositive
  | stopNotPositive
  | pointsNotPositive
deriving DecidableEq, Repr

def AnalysisFault.text : AnalysisFault → String
  | .nameRequired => "analysis name is required"
  | .nonFinite text => s!"non-finite value {text}"
  | .startNotPositive => "fstart must be positive"
  | .stopNotPositive => "fstop must be positive"
  | .pointsNotPositive => "npts must be positive"

/-- What a sink or a file can refuse. -/
inductive OutputFault where
  | sinkFull
  | flushFailed
  | noSuchFile
  /-- Anything else that a system says against opening a file. -/
  | notOpened (text : String)
deriving DecidableEq, Repr

def OutputFault.text : OutputFault → String
  | .sinkFull => "sink full"
  | .flushFailed => "flush failed"
  | .noSuchFile => "No such file or directory (os error 2)"
  | .notOpened text => text

/-- The cause of a fault. -/
inductive Cause where
  /-- A reference to a module that is not yet defined in the package. -/
  | undefinedModule (name : String)
  | undefinedPrimitive (name : String)
  /-- A primitive of a kind that cannot stand for itself. -/
  | invalidPrimitive (name : String) (kind : ElementKind)
  | physicalPrimitive (name : String)
  | undefinedExternal (name : QualifiedName)
  | duplicateExternal (name : QualifiedName)
  /-- Two modules of one package have the same netlist name. -/
  | duplicateModule (name : String)
  | nameConflict (space : NameSpace) (name : String) (first second : NameOwner)
  /-- A parameter with neither an override nor a default. -/
  | missingParameter (name : String)
  /-- A declaration without the default that the format asks for. -/
  | missingDefault (name : String)
  | invalidValue (param : String) (reason : ValueFault)
  | unconnectedPort (port : String)
  | unknownPort (port target : String)
  | duplicateConnection (port : String)
  | duplicatePort (name : String)
  | duplicateSignal (name : String)
  | unknownSignal (name : String)
  | zeroWidth (name : String)
  | emptySlice (slice : Slice)
  | sliceOutOfRange (slice : Slice) (width : UInt64)
  | emptyConcat
  /-- A port without the direction that the format asks for. -/
  | undirectedPort (port : String)
  | undefinedTop (name : String)
  | topPortCount (name : String) (count : Nat)
  | unsupported (format : Format) (feature : Feature)
  | invalidAnalysis (name : String) (reason : AnalysisFault)
  | unknownFormat (name : String)
  | output (fault : OutputFault)
  /-- A text that is not the JSON of what is read, with what its reader says. -/
  | json (text : String)
deriving DecidableEq, Repr

/-- The broad kinds of faults. -/
inductive FaultKind where
  | resolution
  | parameter
  | structural
  | unsupported
  | invalidInput
  | output
deriving DecidableEq, Repr

namespace Cause

def kind : Cause → FaultKind
  | undefinedModule _ | undefinedPrimitive _ | invalidPrimitive _ _ | physicalPrimitive _
  | undefinedExternal _ | duplicateExternal _ | duplicateModule _ | nameConflict _ _ _ _ =>
    .resolution
  | missingParameter _ | missingDefault _ | invalidValue _ _ => .parameter
  | unconnectedPort _ | unknownPort _ _ | duplicateConnection _ | duplicatePort _
  | duplicateSignal _ | unknownSignal _ | zeroWidth _ | emptySlice _ | sliceOutOfRange _ _
  | emptyConcat | undirectedPort _ | undefinedTop _ | topPortCount _ _ => .structural
  | unsupported _ _ => .unsupported
  | invalidAnalysis _ _ | unknownFormat _ | json _ => .invalidInput
  | output _ => .output

/-- The range of a slice, as messages show it. -/
def sliceText (s : Slice) : String :=
  s!"{s.signal}[{s.top.toNat}:{s.bottom.toNat}]"

def message : Cause → String
  | undefinedModule name => s!"undefined module `{name}`"
  | undefinedPrimitive name => s!"undefined primitive `{name}`"
  | invalidPrimitive name kind => s!"invalid primitive `{name}` of kind {kind.title}"
  | physicalPrimitive name =>
    s!"`{name}` is a technology-independent primitive; compile to a target technology, "
      ++ "or replace with an ExternalModule"
  | undefinedExternal name => s!"undefined external module `{name.text}`"
  | duplicateExternal name => s!"external module `{name.text}` is registered more than once"
  | duplicateModule name => s!"module `{name}` is doubly defined"
  | nameConflict space name first second =>
    s!"{space.text} name `{name}` is claimed by both {first.text} and {second.text}"
  | missingParameter name => s!"missing required parameter `{name}`"
  | missingDefault name => s!"parameter `{name}` has no default value"
  | invalidValue param reason => s!"invalid value for parameter `{param}`: {reason.text}"
  | unconnectedPort port => s!"unconnected port `{port}`"
  | unknownPort port target => s!"connection to unknown port `{port}` of `{target}`"
  | duplicateConnection port => s!"port `{port}` is connected more than once"
  | duplicatePort name => s!"duplicate port `{name}`"
  | duplicateSignal name => s!"duplicate signal `{name}`"
  | unknownSignal name => s!"undefined signal `{name}`"
  | zeroWidth name => s!"signal `{name}` has zero width"
  | emptySlice slice => s!"empty slice `{sliceText slice}`"
  | sliceOutOfRange slice width =>
    s!"slice `{sliceText slice}` exceeds signal width {width.toNat}"
  | emptyConcat => "empty concatenation"
  | undirectedPort port => s!"port `{port}` has no direction"
  | undefinedTop name => s!"top module `{name}` not found"
  | topPortCount name count => s!"top module `{name}` must have exactly one port, found {count}"
  | unsupported format feature =>
    s!"{feature.text} is not supported by the {format.name} netlister"
  | invalidAnalysis name reason => s!"invalid analysis `{name}`: {reason.text}"
  | unknownFormat name => s!"unknown netlist format `{name}`"
  | output fault => s!"IO error: {fault.text}"
  | json text => s!"JSON error: {text}"

end Cause

/-- A place that was being written when a fault was met. -/
inductive Place where
  | moduleNamed (name : String)
  | instanceNamed (name : String)
deriving DecidableEq, Repr

def Place.text : Place → String
  | .moduleNamed name => s!"in module `{name}`: "
  | .instanceNamed name => s!"in instance `{name}`: "

/-- A fault is a cause, or a fault that was met within a place. -/
inductive Fault where
  | plain (cause : Cause)
  | within (place : Place) (source : Fault)
deriving DecidableEq, Repr

namespace Fault

/-- The innermost fault, without any place. -/
def root : Fault → Fault
  | plain cause => plain cause
  | within _ source => source.root

def cause : Fault → Cause
  | plain cause => cause
  | within _ source => source.cause

/-- The places that the fault was met within, outermost first. -/
def places : Fault → List Place
  | plain _ => []
  | within place source => place :: source.places

def kind : Fault → FaultKind
  | plain cause => cause.kind
  | within _ source => source.kind

/-- The format cannot express what was asked for, although the input is in order. -/
def isUnsupported (f : Fault) : Bool :=
  f.kind == .unsupported

/-- The module that the fault was met in, if that is its outermost place. -/
def moduleName? : Fault → Option String
  | within (.moduleNamed name) _ => some name
  | _ => none

/-- The outermost instance that the fault was met in. -/
def instanceName? : Fault → Option String
  | within (.instanceNamed name) _ => some name
  | within (.moduleNamed _) source => source.instanceName?
  | plain _ => none

def message : Fault → String
  | plain cause => cause.message
  | within place source => place.text ++ source.message

/-- The fault of a cause that was met within places, outermost first. -/
def ofPlaces (places : List Place) (cause : Cause) : Fault :=
  places.foldr within (plain cause)

/-- A fault is its cause, met within its places. -/
theorem ofPlaces_places (f : Fault) : ofPlaces f.places f.cause = f := by
  induction f with
  | plain cause => rfl
  | within place source ih => exact congrArg (within place) ih

/-- Without its places nothing but the cause is left. -/
theorem root_eq_plain (f : Fault) : f.root = plain f.cause := by
  induction f with
  | plain cause => rfl
  | within place source ih => exact ih

theorem kind_root (f : Fault) : f.root.kind = f.kind := by
  induction f with
  | plain cause => rfl
  | within place source ih => exact ih

theorem isUnsupported_root (f : Fault) : f.root.isUnsupported = f.isUnsupported := by
  rw [isUnsupported, isUnsupported, kind_root]

/-- The message tells the places, the outermost first, and then the innermost fault. -/
theorem message_eq (f : Fault) :
    f.message = String.join (f.places.map Place.text) ++ f.root.message := by
  induction f with
  | plain cause => simp [message, places, root]
  | within place source ih => simp [message, places, root, ih, String.append_assoc]

theorem kind_eq_kind_cause (f : Fault) : f.kind = f.cause.kind := by
  rw [← kind_root, root_eq_plain, kind]

/-- A module is told if it is the outermost place. -/
theorem moduleName?_eq (f : Fault) :
    f.moduleName? = match f.places with
      | .moduleNamed name :: _ => some name
      | _ => none := by
  rcases f with cause | ⟨_ | _, source⟩ <;> rfl

/-- An instance is told if it is the outermost of the instances. -/
theorem instanceName?_eq (f : Fault) :
    f.instanceName? = f.places.findSome? fun
      | .instanceNamed name => some name
      | .moduleNamed _ => none := by
  induction f with
  | plain cause => rfl
  | within place source ih =>
    cases place with
    | moduleNamed name => exact ih
    | instanceNamed name => rfl

theorem cause_ofPlaces (places : List Place) (cause : Cause) :
    (ofPlaces places cause).cause = cause := by
  induction places with
  | nil => rfl
  | cons place places ih => exact ih

theorem kind_ofPlaces (places : List Place) (cause : Cause) :
    (ofPlaces places cause).kind = cause.kind := by
  rw [kind_eq_kind_cause, cause_ofPlaces]

end Fault

end CircuitNetlist
