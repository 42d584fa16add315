import CircuitNetlist.Json.Simulation
import CircuitNetlist.Proofs.CircuitCodecs
import Mathlib.Tactic.Tauto

/-!
# The codecs of simulation inputs

Each type of simulation inputs has a codec, read off its declaration. The initial conditions of a
transient analysis are written as an object, so its nodes have to be distinct; the decoder sees to
that.
-/
namespace CircuitNetlist

variable {least : Nat}

namespace SimulatorOption

def AllFinite (o : SimulatorOption) : Prop :=
  o.value.AllFinite

theorem codec : Codec toJson decode AllFinite least :=
  .record [⟨"name", name, .required .text⟩, ⟨"value", value, .required Value.codec⟩]
    rfl (by decide)
    (by simp [toJson, Json.ofEntries])
    (by
      rintro depth values ⟨name, value⟩
      simp [Option.bind_eq_some_iff])
    (by simp [AllFinite])

end SimulatorOption

namespace FileInclude

theorem codec : Codec toJson decode (fun _ => True) least :=
  .record [⟨"path", path, .required .text⟩]
    rfl (by decide)
    (by simp [toJson, Json.ofEntries])
    (by
      rintro depth values ⟨path⟩
      simp [Option.bind_eq_some_iff])
    (by simp)

end FileInclude

namespace LibraryInclude

theorem codec : Codec toJson decode (fun _ => True) least :=
  .record [⟨"path", path, .required .text⟩, ⟨"section", sectionName, .required .text⟩]
    rfl (by decide)
    (by simp [toJson, Json.ofEntries])
    (by
      rintro depth values ⟨path, sectionName⟩
      simp [Option.bind_eq_some_iff])
    (by simp)

end LibraryInclude

namespace SaveMode

theorem codec : Codec toJson decode (fun _ => True) least :=
  .choice fun mode => by cases mode <;> rfl

end SaveMode

namespace Save

theorem codec : Codec toJson decode (fun _ => True) least :=
  .variant [.mk "mode" mode SaveMode.codec, .mk "signal" signal .text]
    rfl (by decide)
    (by simp [toJson])
    (by simp)
    fun
      | mode m => ⟨0, _, rfl, m, rfl⟩
      | signal name => ⟨1, _, rfl, name, rfl⟩

end Save

namespace Measurement

theorem codec : Codec toJson decode (fun _ => True) least :=
  .record [⟨"analysis_type", analysis, .required .text⟩, ⟨"name", name, .required .text⟩,
      ⟨"expr", expression, .required .text⟩]
    rfl (by decide)
    (by simp [toJson, Json.ofEntries])
    (by
      rintro depth values ⟨analysis, name, expression⟩
      simp [Option.bind_eq_some_iff])
    (by simp)

end Measurement

namespace Control

def AllFinite : Control → Prop
  | param p => p.AllFinite
  | _ => True

theorem codec : Codec toJson decode AllFinite least :=
  .variant [.mk "include" file FileInclude.codec, .mk "lib" library LibraryInclude.codec,
      .mk "save" save Save.codec, .mk "meas" measure Measurement.codec,
      .mk "param" param Param.codec, .mk "literal" literal .text]
    rfl (by decide)
    (by simp [toJson])
    (by simp [AllFinite])
    fun
      | file card => ⟨0, _, rfl, card, rfl⟩
      | library card => ⟨1, _, rfl, card, rfl⟩
      | save card => ⟨2, _, rfl, card, rfl⟩
      | measure card => ⟨3, _, rfl, card, rfl⟩
      | param card => ⟨4, _, rfl, card, rfl⟩
      | literal line => ⟨5, _, rfl, line, rfl⟩

end Control

namespace LinearSweep

def AllFinite (s : LinearSweep) : Prop :=
  s.start.isFinite ∧ s.stop.isFinite ∧ s.step.isFinite

theorem codec : Codec toJson decode AllFinite least :=
  .record [⟨"start", start, .required .double⟩, ⟨"stop", stop, .required .double⟩,
      ⟨"step", step, .required .double⟩]
    rfl (by decide)
    (by simp [toJson, Json.ofEntries])
    (by
      rintro depth values ⟨start, stop, step⟩
      simp [Option.bind_eq_some_iff])
    (by simp [AllFinite])

end LinearSweep

namespace DecadeSweep

def AllFinite (s : DecadeSweep) : Prop :=
  s.start.isFinite ∧ s.stop.isFinite

theorem codec : Codec toJson decode AllFinite least :=
  .record [⟨"start", start, .required .double⟩, ⟨"stop", stop, .required .double⟩,
      ⟨"npts", pointsPerDecade, .required .uint64⟩]
    rfl (by decide)
    (by simp [toJson, Json.ofEntries])
    (by
      rintro depth values ⟨start, stop, points⟩
      simp [Option.bind_eq_some_iff])
    (by simp [AllFinite])

end DecadeSweep

namespace PointSweep

def AllFinite (s : PointSweep) : Prop :=
  ∀ x ∈ s.points, x.isFinite

theorem codec : Codec toJson decode AllFinite least :=
  .record [⟨"points", points, .required (.list .double)⟩]
    rfl (by decide)
    (by simp [toJson, Json.ofEntries])
    (by
      rintro depth values ⟨points⟩
      simp [Option.bind_eq_some_iff])
    (by simp [AllFinite])

end PointSweep

namespace Sweep

def AllFinite : Sweep → Prop
  | linear s => s.AllFinite
  | decade s => s.AllFinite
  | points s => s.AllFinite

theorem codec : Codec toJson decode AllFinite least :=
  .variant [.mk "linear" linear LinearSweep.codec, .mk "log" decade DecadeSweep.codec,
      .mk "points" points PointSweep.codec]
    rfl (by decide)
    (by simp [toJson])
    (by simp [AllFinite])
    fun
      | linear s => ⟨0, _, rfl, s, rfl⟩
      | decade s => ⟨1, _, rfl, s, rfl⟩
      | points s => ⟨2, _, rfl, s, rfl⟩

end Sweep

namespace OperatingPoint

def AllFinite (a : OperatingPoint) : Prop :=
  ∀ c ∈ a.controls, c.AllFinite

theorem codec : Codec toJson decode AllFinite (least + 2) :=
  .record [⟨"analysis_name", name, .required .text⟩, ⟨"ctrls", controls, .items Control.codec⟩]
    rfl (by decide)
    (by simp [toJson, Json.ofEntries])
    (by
      rintro depth values ⟨name, controls⟩
      simp [Option.bind_eq_some_iff, decodeControls])
    (by simp [AllFinite])

end OperatingPoint

namespace DcAnalysis

def AllFinite (a : DcAnalysis) : Prop :=
  a.sweep.AllFinite ∧ ∀ c ∈ a.controls, c.AllFinite

theorem codec : Codec toJson decode AllFinite (least + 2) :=
  .record [⟨"analysis_name", name, .required .text⟩, ⟨"indep_name", swept, .required .text⟩,
      ⟨"sweep", sweep, .required Sweep.codec⟩, ⟨"ctrls", controls, .items Control.codec⟩]
    rfl (by decide)
    (by simp [toJson, Json.ofEntries])
    (by
      rintro depth values ⟨name, swept, sweep, controls⟩
      simp [Option.bind_eq_some_iff, decodeControls])
    (by simp [AllFinite])

end DcAnalysis

namespace AcAnalysis

def AllFinite (a : AcAnalysis) : Prop :=
  a.start.isFinite ∧ a.stop.isFinite ∧ ∀ c ∈ a.controls, c.AllFinite

theorem codec : Codec toJson decode AllFinite (least + 2) :=
  .record [⟨"analysis_name", name, .required .text⟩, ⟨"fstart", start, .required .double⟩,
      ⟨"fstop", stop, .required .double⟩, ⟨"npts", pointsPerDecade, .required .uint64⟩,
      ⟨"ctrls", controls, .items Control.codec⟩]
    rfl (by decide)
    (by simp [toJson, Json.ofEntries])
    (by
      rintro depth values ⟨name, start, stop, points, controls⟩
      simp [Option.bind_eq_some_iff, decodeControls])
    (by simp [AllFinite])

end AcAnalysis

/-! ### Initial conditions -/

/-- A table of node values that an object can hold. -/
@[mk_iff]
structure InitialTable (table : List (String × Double)) : Prop where
  finite : ∀ entry ∈ table, entry.2.isFinite
  distinct : (table.map (·.1)).Nodup

theorem setInitial_of_new {table : List (String × Double)} {node : String}
    (new : node ∉ table.map (·.1)) (x : Double) :
    setInitial table node x = table ++ [(node, x)] := by
  have absent : ¬ table.any (·.1 == node) := by
    simpa using new
  rw [setInitial, if_neg absent]

theorem InitialTable.setInitial {table : List (String × Double)} (known : InitialTable table)
    (node : String) {x : Double} (finite : x.isFinite) :
    InitialTable (CircuitNetlist.setInitial table node x) := by
  by_cases known_node : node ∈ table.map (·.1)
  · have present : table.any (·.1 == node) := by
      simpa using known_node
    rw [CircuitNetlist.setInitial, if_pos present]
    constructor
    case finite =>
      rw [List.forall_mem_map]
      intro entry member
      split
      · exact finite
      · exact known.finite entry member
    case distinct =>
      have names : ∀ entry : String × Double,
          (if entry.1 == node then (node, x) else entry).1 = entry.1 := by
        intro entry
        split
        case isTrue same => exact (eq_of_beq same).symm
        case isFalse => rfl
      simpa only [List.map_map, Function.comp_def, names] using known.distinct
  · rw [setInitial_of_new known_node]
    constructor
    case finite =>
      rw [List.forall_mem_append, List.forall_mem_singleton]
      exact ⟨known.finite, finite⟩
    case distinct =>
      rw [List.map_append, List.map_singleton, ← List.concat_eq_append]
      exact known.distinct.concat known_node

/-- Distinct nodes are set one behind the other. -/
theorem foldl_setInitial {front table : List (String × Double)}
    (distinct : ((front ++ table).map (·.1)).Nodup) :
    table.foldl (fun known entry => setInitial known entry.1 entry.2) front = front ++ table := by
  induction table generalizing front with
  | nil => simp
  | cons entry table ih =>
    have new : entry.1 ∉ front.map (·.1) := by
      rw [List.map_append, List.nodup_append'] at distinct
      exact fun known => distinct.2.2 known List.mem_cons_self
    rw [List.foldl_cons, setInitial_of_new new, ih (by simpa using distinct), List.append_assoc]
    rfl

theorem InitialTable.foldl_setInitial {entries table : List (String × Double)}
    (known : InitialTable table) (finite : ∀ entry ∈ entries, entry.2.isFinite) :
    InitialTable (entries.foldl
      (fun known entry => CircuitNetlist.setInitial known entry.1 entry.2) table) := by
  induction entries generalizing table with
  | nil => exact known
  | cons entry entries ih =>
    rw [List.forall_mem_cons] at finite
    exact ih (known.setInitial entry.1 finite.1) finite.2

/-- What is decoded as initial conditions was set node by node. -/
theorem exists_of_decodeInitial {depth : Nat} {j : Json} {table : List (String × Double)}
    (read : decodeInitial depth j = some table) :
    ∃ (below : Nat) (entries : List (String × Double)), depth = below + 1
      ∧ (∀ entry ∈ entries, entry.2.isFinite)
      ∧ table = entries.foldl (fun known entry => setInitial known entry.1 entry.2) [] := by
  unfold decodeInitial at read
  split at read
  case h_1 below fields =>
    simp only [Option.bind_eq_bind, Option.bind_eq_some_iff, Option.pure_def,
      Option.some.injEq] at read
    obtain ⟨entries, decoded, rfl⟩ := read
    refine ⟨below, entries, rfl, forall_mem_of_mapM decoded ?_, rfl⟩
    intro field entry found
    simp only [Option.bind_eq_some_iff, Option.some.injEq] at found
    obtain ⟨node, -, x, value, rfl⟩ := found
    exact (@Codec.double 0).good_of_decode value
  case h_2 => simp at read

theorem codec_initial :
    Codec (fun table => .ofFields (table.map fun entry => (entry.1, .ofDouble entry.2)))
      decodeInitial InitialTable least where
  decode_encode := by
    intro table depth good fits
    cases depth with
    | zero => simp [Json.ofFields, Json.height] at fits
    | succ depth =>
      rw [Json.height_ofFields_le, List.forall_mem_map] at fits
      have entries := foldl_setInitial (by simpa using good.distinct : (([] ++ table).map _).Nodup)
      have decoded : ∀ entry ∈ table, Decoder.double depth (.ofDouble entry.2) = some entry.2 := by
        intro entry member
        exact (@Codec.double 0).decode_encode (good.finite entry member) (fits entry member)
      rw [Json.ofFields, decodeInitial]
      refine Option.bind_eq_some_iff.mpr ⟨table, mapM_eq_some.mpr ?_, congrArg some entries⟩
      rw [List.forall₂_map_left_iff, List.forall₂_map_left_iff, List.forall₂_same]
      intro entry member
      simp [decoded entry member]
  good_of_decode := by
    intro depth j table read
    obtain ⟨below, entries, -, finite, rfl⟩ := exists_of_decodeInitial read
    exact InitialTable.foldl_setInitial ⟨by simp, by simp⟩ finite
  height_le := by
    intro depth j table read _
    obtain ⟨below, entries, rfl, finite, -⟩ := exists_of_decodeInitial read
    rw [Json.height_ofFields_le, List.forall_mem_map]
    intro entry _
    dsimp only
    unfold Json.ofDouble
    split <;> exact Nat.zero_le _
  canonical {table} good := by
    apply Json.IsCanonical.object
    simp only [List.forall_mem_map]
    exact fun entry member => (@Codec.double 0).canonical (good.finite entry member)

namespace TransientAnalysis

def AllFinite (a : TransientAnalysis) : Prop :=
  a.stop.isFinite ∧ a.step.isFinite ∧ (∀ entry ∈ a.initial, entry.2.isFinite)
    ∧ ∀ c ∈ a.controls, c.AllFinite

/-- No node has two initial conditions. -/
def DistinctInitial (a : TransientAnalysis) : Prop :=
  (a.initial.map (·.1)).Nodup

theorem codec : Codec toJson decode (fun a => a.AllFinite ∧ a.DistinctInitial) (least + 2) :=
  .record [⟨"analysis_name", name, .required .text⟩, ⟨"tstop", stop, .required .double⟩,
      ⟨"tstep", step, .required .double⟩,
      ⟨"ic", initial, .orElse [] ⟨by simp, by simp⟩ (Nat.le_add_left 1 least) codec_initial⟩,
      ⟨"ctrls", controls, .items Control.codec⟩]
    rfl (by decide)
    (by simp [toJson, Json.ofEntries])
    (by
      rintro depth values ⟨name, stop, step, initial, controls⟩
      simp [Option.bind_eq_some_iff, decodeControls])
    (by
      intro a
      simp only [AllFinite, DistinctInitial, initialTable_iff, List.forall_mem_cons]
      tauto)

end TransientAnalysis

namespace NoiseAnalysis

def AllFinite (a : NoiseAnalysis) : Prop :=
  a.start.isFinite ∧ a.stop.isFinite ∧ ∀ c ∈ a.controls, c.AllFinite

theorem codec : Codec toJson decode AllFinite (least + 2) :=
  .record [⟨"analysis_name", name, .required .text⟩, ⟨"output_p", outputPositive, .required .text⟩,
      ⟨"output_n", outputNegative, .orElse "" trivial (Nat.zero_le _) .text⟩,
      ⟨"input_source", inputSource, .required .text⟩, ⟨"fstart", start, .required .double⟩,
      ⟨"fstop", stop, .required .double⟩, ⟨"npts", pointsPerDecade, .required .uint64⟩,
      ⟨"ctrls", controls, .items Control.codec⟩]
    rfl (by decide)
    (by simp [toJson, Json.ofEntries])
    (by
      rintro depth values ⟨name, positive, negative, source, start, stop, points, controls⟩
      simp [Option.bind_eq_some_iff, decodeControls])
    (by simp [AllFinite])

end NoiseAnalysis

namespace CustomAnalysis

theorem codec : Codec toJson decode (fun _ => True) least :=
  .record [⟨"analysis_name", name, .required .text⟩, ⟨"cmd", command, .required .text⟩]
    rfl (by decide)
    (by simp [toJson, Json.ofEntries])
    (by
      rintro depth values ⟨name, command⟩
      simp [Option.bind_eq_some_iff])
    (by simp)

end CustomAnalysis

namespace Analysis

def AllFinite : Analysis → Prop
  | operatingPoint a => a.AllFinite
  | dc a => a.AllFinite
  | ac a => a.AllFinite
  | transient a => a.AllFinite
  | noise a => a.AllFinite
  | custom _ => True

/-- No node has two initial conditions. -/
def DistinctInitial : Analysis → Prop
  | transient a => a.DistinctInitial
  | _ => True

theorem codec : Codec toJson decode (fun a => a.AllFinite ∧ a.DistinctInitial) (least + 3) :=
  .variant [.mk "op" operatingPoint OperatingPoint.codec, .mk "dc" dc DcAnalysis.codec,
      .mk "ac" ac AcAnalysis.codec, .mk "tran" transient TransientAnalysis.codec,
      .mk "noise" noise NoiseAnalysis.codec,
      .mk "custom" custom CustomAnalysis.codec]
    rfl (by decide)
    (by
      simp only [List.forall_mem_cons, toJson]
      simp)
    (by
      simp only [List.forall_mem_cons, AllFinite, DistinctInitial]
      simp)
    fun
      | operatingPoint a => ⟨0, _, rfl, a, rfl⟩
      | dc a => ⟨1, _, rfl, a, rfl⟩
      | ac a => ⟨2, _, rfl, a, rfl⟩
      | transient a => ⟨3, _, rfl, a, rfl⟩
      | noise a => ⟨4, _, rfl, a, rfl⟩
      | custom a => ⟨5, _, rfl, a, rfl⟩

end Analysis

namespace SimulationInput

/-- Every double in the input is finite. -/
def AllFinite (s : SimulationInput) : Prop :=
  s.package.AllFinite ∧ (∀ o ∈ s.options, o.AllFinite) ∧ (∀ a ∈ s.analyses, a.AllFinite)
    ∧ ∀ c ∈ s.controls, c.AllFinite

/-- In no analysis does a node have two initial conditions. -/
def DistinctInitial (s : SimulationInput) : Prop :=
  ∀ a ∈ s.analyses, a.DistinctInitial

theorem codec : Codec toJson decode (fun s => s.AllFinite ∧ s.DistinctInitial) 7 :=
  .record [⟨"pkg", package, .required Package.codec⟩, ⟨"top", top, .required .text⟩,
      ⟨"opts", options, .items SimulatorOption.codec⟩, ⟨"an", analyses, .items Analysis.codec⟩,
      ⟨"ctrls", controls, .items Control.codec⟩]
    rfl (by decide)
    (by simp [toJson, Json.ofEntries])
    (by
      rintro depth values ⟨package, top, options, analyses, controls⟩
      simp [Option.bind_eq_some_iff, decodeControls])
    (by
      intro s
      simp only [AllFinite, DistinctInitial, List.forall_mem_cons, forall_and]
      tauto)

end SimulationInput

end CircuitNetlist
