import CircuitNetlist.Proofs.AcceptedRuns
import CircuitNetlist.Proofs.Outcomes
import CircuitNetlist.Proofs.WrittenNumbers

/-!
# Which analyses are written

Every dialect has a table of the analyses and sweeps that it can say, and of the words that it says
them in. An analysis whose data are in order is written exactly where its dialect has it and nothing
comes with it that no dialect can say; its statements are then those of the table, with texts for
its numbers that are read as the same doubles. Otherwise it is refused for the feature that is
missing, and nothing is written.
-/
namespace CircuitNetlist

/-! ### Data and features -/

/-- The numbers of a sweep that have to be finite. -/
def Sweep.numbers : Sweep → List Double
  | linear s => [s.start, s.stop, s.step]
  | decade s => [s.start, s.stop]
  | points s => s.points

/-- What a dialect has or does not have. -/
inductive AnalysisForm where
  | operatingPoint
  | linear
  | decade
  | points
  | ac
  | transient
  | noise
  | custom
deriving DecidableEq, Repr

/-- The analyses and sweeps that a dialect can say, apart from statements of its own. -/
def Dialect.analyses : Dialect → List AnalysisForm
  | spice | hspice => [.operatingPoint, .linear, .ac, .transient]
  | ngspice => [.operatingPoint, .linear, .ac, .transient, .noise]
  | xyce => [.operatingPoint, .linear, .decade, .points, .ac, .transient]
  | spectre => [.operatingPoint, .linear, .points, .ac, .transient]
  | verilog => []

namespace Analysis

def form : Analysis → AnalysisForm
  | operatingPoint _ => .operatingPoint
  | dc a =>
    match a.sweep with
    | .linear _ => .linear
    | .decade _ => .decade
    | .points _ => .points
  | ac _ => .ac
  | transient _ => .transient
  | noise _ => .noise
  | custom _ => .custom

/-- The values that nodes start with. -/
def initial : Analysis → List (String × Double)
  | transient a => a.initial
  | _ => []

/-- All numbers of an analysis but the counts of points. -/
def numbers : Analysis → List Double
  | dc a => a.sweep.numbers
  | ac a => [a.start, a.stop]
  | transient a => [a.stop, a.step] ++ a.initial.map (·.2)
  | noise a => [a.start, a.stop]
  | operatingPoint _ | custom _ => []

/-- The frequencies that an analysis goes through: from, to, and the points in a decade. -/
def range : Analysis → Option (Double × Double × UInt64)
  | ac a => some (a.start, a.stop, a.pointsPerDecade)
  | noise a => some (a.start, a.stop, a.pointsPerDecade)
  | _ => none

/-- The data of an analysis are in order. -/
structure Valid (a : Analysis) : Prop where
  named : a.name ≠ ""
  finite : ∀ x ∈ a.numbers, x.isFinite
  ranged : ∀ r ∈ a.range, 0 < r.1.value ∧ 0 < r.2.1.value ∧ 0 < r.2.2

/-- The dialect has the analysis, and nothing comes with it that no dialect has. -/
structure Expressible (d : Dialect) (a : Analysis) : Prop where
  known : a.form = .custom ∨ a.form ∈ d.analyses
  uncontrolled : a.controls = []
  resting : a.initial = []

/-- The words of the statements that an analysis is in a dialect, one list for each statement. There
are none where the dialect does not have the analysis. -/
def words : Dialect → Analysis → List (List String)
  | .spice, operatingPoint _ | .hspice, operatingPoint _ | .ngspice, operatingPoint _ => [[".op"]]
  | .xyce, operatingPoint a =>
    [[".param", "_" ++ a.name ++ "_op=1"], [".dc", "_" ++ a.name ++ "_op", "1", "1", "1"]]
  | .spectre, operatingPoint a => [[a.name, "dc", "oppoint=rawfile"]]
  | .spice, dc ⟨_, swept, .linear s, _⟩ | .hspice, dc ⟨_, swept, .linear s, _⟩
  | .ngspice, dc ⟨_, swept, .linear s, _⟩ =>
    [[".dc", swept, s.start.text, s.stop.text, s.step.text]]
  | .xyce, dc ⟨_, swept, .linear s, _⟩ =>
    [[".dc", "LIN", swept, s.start.text, s.stop.text, s.step.text]]
  | .spectre, dc ⟨name, swept, .linear s, _⟩ =>
    [[name, "dc", "param=" ++ swept, "start=" ++ s.start.text, "stop=" ++ s.stop.text,
      "step=" ++ s.step.text]]
  | .xyce, dc ⟨_, swept, .decade s, _⟩ =>
    [[".dc", "DEC", swept, s.start.text, s.stop.text, toString s.pointsPerDecade.toNat]]
  | .xyce, dc ⟨_, swept, .points s, _⟩ =>
    [[".dc", swept, "LIST", " ".intercalate (s.points.map Double.text)]]
  | .spectre, dc ⟨name, swept, .points s, _⟩ =>
    [[name, "dc", "param=" ++ swept,
      "values=[" ++ " ".intercalate (s.points.map Double.text) ++ "]"]]
  | .spice, ac a | .hspice, ac a | .ngspice, ac a =>
    [[".ac", "dec", toString a.pointsPerDecade.toNat, a.start.text, a.stop.text]]
  | .xyce, ac a => [[".ac", "DEC", toString a.pointsPerDecade.toNat, a.start.text, a.stop.text]]
  | .spectre, ac a =>
    [[a.name, "ac", "start=" ++ a.start.text, "stop=" ++ a.stop.text,
      "dec=" ++ toString a.pointsPerDecade.toNat]]
  | .spice, transient a | .hspice, transient a | .ngspice, transient a | .xyce, transient a =>
    [[".tran", a.step.text, a.stop.text]]
  | .spectre, transient a => [[a.name, "tran", "stop=" ++ a.stop.text, "step=" ++ a.step.text]]
  | .ngspice, noise a =>
    [[".noise",
      if a.outputNegative = "" then "v(xtop." ++ a.outputPositive ++ ")"
      else "v(xtop." ++ a.outputPositive ++ ",xtop." ++ a.outputNegative ++ ")",
      "v.xtop.v" ++ a.inputSource, "dec", toString a.pointsPerDecade.toNat, a.start.text,
      a.stop.text]]
  | _, custom a => [[a.command]]
  | _, _ => []

/-- The statements of an analysis: its words, with a blank between two of them. -/
def statements (d : Dialect) (a : Analysis) : List String :=
  (a.words d).map (" ".intercalate ·)

/-- The analyses that a dialect has are one statement each, but for the operating point of Xyce,
which is a sweep over one point. -/
theorem length_statements {d : Dialect} {a : Analysis} (able : a.Expressible d) :
    (a.statements d).length = if a.form = .operatingPoint ∧ d = .xyce then 2 else 1 := by
  have known := able.known
  rw [statements, List.length_map]
  rcases a with a | ⟨name, swept, sweep | sweep | sweep, controls⟩ | a | a | a | a <;>
    cases d <;> first | rfl | exact absurd known (by simp [form, Dialect.analyses])

example : (operatingPoint { name := "op1" }).statements .xyce
    = [".param _op1_op=1", ".dc _op1_op 1 1 1"] := rfl

end Analysis

/-! ### Steps that are settled by the data and by the dialect -/

/-- The step ends well just for data that are in order in a dialect that has what is asked for.
Where only the dialect does not have it, the step says so. -/
structure Settled {α : Type} (d : Dialect) (valid able : Prop) (good : α → Prop)
    (step : Except Cause α) : Prop where
  sound : ∀ a, step = .ok a → valid ∧ able ∧ good a
  complete : valid → able → ∃ a, step = .ok a
  refused : valid → ¬ able → ∃ feature, step = .error (d.unsupported feature)

namespace Settled
variable {α β : Type} {d : Dialect} {valid able : Prop} {good : α → Prop} {step : Except Cause α}

theorem done {a : α} (has : able) (holds : good a) :
    Settled d True able good (pure a : Except Cause α) := by
  refine ⟨?_, fun _ _ => ⟨a, rfl⟩, fun _ lacks => absurd has lacks⟩
  intro a' same
  obtain rfl := Except.ok.inj same
  exact ⟨trivial, has, holds⟩

theorem invalid {cause : Cause} (failed : step = .error cause) (bad : ¬ valid) :
    Settled d valid able good step := by
  refine ⟨?_, fun valid _ => absurd valid bad, fun valid _ => absurd valid bad⟩
  intro a same
  cases failed.symm.trans same

theorem unable {feature : Feature} (failed : step = .error (d.unsupported feature))
    (lacks : ¬ able) : Settled d valid able good step := by
  refine ⟨?_, fun _ has => absurd has lacks, fun _ _ => ⟨feature, failed⟩⟩
  intro a same
  cases failed.symm.trans same

theorem congr {valid' able' : Prop} (h : Settled d valid able good step) (same : valid ↔ valid')
    (same' : able ↔ able') : Settled d valid' able' good step := by
  rw [← same, ← same']
  exact h

/-- Data that are in order only where the dialect has what is asked for need not be looked at. -/
theorem unread {valid' : Prop} (h : Settled d valid able good step) (some : valid' → valid)
    (all : valid → able → valid') : Settled d valid' able good step := by
  refine ⟨?_, fun valid => h.complete (some valid), fun valid => h.refused (some valid)⟩
  intro a same
  obtain ⟨valid, has, holds⟩ := h.sound a same
  exact ⟨all valid has, has, holds⟩

/-- What is looked at first has to be in order as well. -/
theorem after {first : Except Cause β} {next : β → Except Cause α} {b : β} {c : Prop}
    (passes : c → first = .ok b) (stops : ¬ c → ∃ cause, first = .error cause)
    (rest : Settled d valid able good (next b)) :
    Settled d (c ∧ valid) able good (first >>= next) := by
  by_cases holds : c
  · rw [passes holds]
    exact rest.congr (and_iff_right holds).symm Iff.rfl
  · obtain ⟨cause, failed⟩ := stops holds
    have fails : first >>= next = .error cause := by rw [failed]; rfl
    exact invalid fails fun valid => holds valid.1

/-- A check of the data in front. -/
theorem checked {c : Prop} [Decidable c] {stop : Except Cause α} {cause : Cause}
    (failed : stop = .error cause) (rest : Settled d valid able good step) :
    Settled d (¬ c ∧ valid) able good (if c then stop else step) := by
  by_cases bad : c
  · rw [if_pos bad]
    exact invalid failed fun valid => valid.1 bad
  · rw [if_neg bad]
    exact rest.congr (and_iff_right bad).symm Iff.rfl

/-- A feature that no dialect has. -/
theorem without {c : Prop} [Decidable c] {stop : Except Cause α} {feature : Feature}
    (failed : stop = .error (d.unsupported feature)) (rest : Settled d valid able good step) :
    Settled d valid (¬ c ∧ able) good (if c then stop else step) := by
  by_cases there : c
  · rw [if_pos there]
    exact unable failed fun has => has.1 there
  · rw [if_neg there]
    exact rest.congr Iff.rfl (and_iff_right there).symm

/-- The one statement of an analysis. -/
theorem statement {a : Analysis} {step : Except Cause String}
    (h : Settled d valid able (fun line => [line] = a.statements d) step) :
    Settled d valid able (· = a.statements d) (do return [← step]) := by
  cases ends : step with
  | error cause =>
      rw [ends] at h
      refine ⟨?_, ?_, ?_⟩
      · intro lines same
        cases same
      · intro valid has
        obtain ⟨line, same⟩ := h.complete valid has
        cases same
      · intro valid lacks
        obtain ⟨feature, same⟩ := h.refused valid lacks
        obtain rfl := Except.error.inj same
        exact ⟨feature, rfl⟩
  | ok line =>
      obtain ⟨valid, has, said⟩ := h.sound line ends
      refine ⟨?_, fun _ _ => ⟨[line], rfl⟩, fun _ lacks => absurd has lacks⟩
      intro lines same
      obtain rfl := Except.ok.inj same
      exact ⟨valid, has, said⟩

end Settled

namespace Analysis
variable {d : Dialect} {valid able : Prop} {α : Type} {good : α → Prop}

theorem settled_number {analysis : String} {x : Double} {next : String → Except Cause α}
    (rest : Settled d valid able good (next x.text)) :
    Settled d (x.isFinite ∧ valid) able good (number analysis x >>= next) := by
  apply Settled.after _ _ rest
  · intro finite
    exact if_pos finite
  · intro infinite
    exact ⟨_, if_neg infinite⟩

theorem settled_numbers {analysis : String} {xs : List Double} {next : List String → Except Cause α}
    (rest : Settled d True able good (next (xs.map Double.text))) :
    Settled d (∀ x ∈ xs, x.isFinite) able good (xs.mapM (number analysis) >>= next) := by
  induction xs generalizing next with
  | nil => exact rest.congr (by simp) Iff.rfl
  | cons x xs ih =>
      have others : Settled d (∀ y ∈ xs, y.isFinite) able good
          (xs.mapM (number analysis) >>= fun texts => next (x.text :: texts)) := ih rest
      simp only [List.mapM_cons, bind_assoc, pure_bind]
      exact (settled_number others).congr (by rw [List.forall_mem_cons]) Iff.rfl

/-- A range as it is checked. -/
theorem settled_frequencies {analysis : String} {start stop : Double} {points : UInt64}
    {next : Unit → Except Cause α} (rest : Settled d valid able good (next ())) :
    Settled d ((start.atMostZero = false ∧ stop.atMostZero = false ∧ points ≠ 0) ∧ valid) able good
      (checkFrequencies analysis start stop points >>= next) := by
  unfold checkFrequencies
  apply Settled.after _ _ rest
  · rintro ⟨first, last, some⟩
    rw [first, last, if_neg Bool.false_ne_true, if_neg Bool.false_ne_true, if_neg some]
    rfl
  · intro bad
    by_cases first : start.atMostZero
    · rw [if_pos first]
      exact ⟨_, rfl⟩
    by_cases last : stop.atMostZero
    · rw [if_neg first, if_pos last]
      exact ⟨_, rfl⟩
    by_cases none : points = 0
    · rw [if_neg first, if_neg last, if_pos none]
      exact ⟨_, rfl⟩
    · exact absurd ⟨Bool.eq_false_iff.mpr first, Bool.eq_false_iff.mpr last, none⟩ bad

/-- A range is in order where its ends are finite and positive and it has points. -/
theorem settled_range {analysis : String} {start stop : Double} {points : UInt64}
    {next : String → String → Except Cause α}
    (rest : Settled d True able good (next start.text stop.text)) :
    Settled d ((start.isFinite ∧ stop.isFinite) ∧ 0 < start.value ∧ 0 < stop.value ∧ 0 < points)
      able good (checkFrequencies analysis start stop points >>= fun _ =>
        number analysis start >>= fun first => number analysis stop >>= next first) := by
  have checked : Settled d _ able good (checkFrequencies analysis start stop points >>= fun _ =>
      number analysis start >>= fun first => number analysis stop >>= next first) :=
    settled_frequencies (settled_number (settled_number rest))
  refine checked.congr ?_ Iff.rfl
  -- the numbers are looked at after the comparisons, which NaN passes
  rw [and_true, and_comm]
  apply and_congr_right
  intro finite
  rw [Double.value_pos_iff finite.1, Double.value_pos_iff finite.2, UInt64.pos_iff_ne_zero]

/-! ### Every analysis -/

/-- A line is said in the words of the table if it has their characters. -/
theorem said_of_toList {line : String} {words : List String}
    (same : line.toList = (" ".intercalate words).toList) : [line] = [" ".intercalate words] :=
  congrArg (fun text => [text]) (String.toList_inj.mp same)

theorem settled_operatingPoint (d : Dialect) (a : OperatingPoint) :
    Settled d True (.operatingPoint ∈ d.analyses) (· = (operatingPoint a).statements d)
      (operatingPointTexts d a) := by
  cases d with
  | spice | hspice | ngspice => exact .done (by decide) rfl
  | xyce =>
      refine .done (by decide) ?_
      simp [statements, words, toString, String.ext_iff]
  | spectre => exact .done (by decide) (said_of_toList (by simp [toString]))
  | verilog => exact .unable rfl (by decide)

theorem settled_linearNumbers {analysis : String} {s : LinearSweep}
    {next : String × String × String → Except Cause α}
    (rest : Settled d True able good (next (s.start.text, s.stop.text, s.step.text))) :
    Settled d (∀ x ∈ (Sweep.linear s).numbers, x.isFinite) able good
      (linearNumbers analysis s >>= next) := by
  unfold linearNumbers
  simp only [bind_assoc, pure_bind]
  have checked : Settled d _ able good (number analysis s.start >>= fun start =>
      number analysis s.stop >>= fun stop => number analysis s.step >>= fun step =>
        next (start, stop, step)) :=
    settled_number (settled_number (settled_number rest))
  exact checked.congr (by simp [Sweep.numbers]) Iff.rfl

theorem settled_linear (d : Dialect) (a : DcAnalysis) (s : LinearSweep) :
    Settled d (∀ x ∈ (Sweep.linear s).numbers, x.isFinite) (.linear ∈ d.analyses)
      (fun line => [line] = (dc { a with sweep := .linear s }).statements d)
      (linearText d a s) := by
  unfold linearText
  cases d with
  | spice | hspice | ngspice | xyce | spectre =>
      exact settled_linearNumbers (.done (by decide) (said_of_toList (by simp [toString])))
  | verilog => exact .unable rfl (by decide)

theorem settled_decade (d : Dialect) (a : DcAnalysis) (s : DecadeSweep) :
    Settled d (∀ x ∈ (Sweep.decade s).numbers, x.isFinite) (.decade ∈ d.analyses)
      (fun line => [line] = (dc { a with sweep := .decade s }).statements d)
      (decadeText d a s) := by
  unfold decadeText
  cases d with
  | xyce =>
      refine Settled.congr (settled_number (settled_number (.done (by decide) ?_)))
        (by simp [Sweep.numbers]) Iff.rfl
      exact said_of_toList (by simp [toString])
  | spice | hspice | ngspice | spectre | verilog => exact .unable rfl (by decide)

theorem settled_points (d : Dialect) (a : DcAnalysis) (s : PointSweep) :
    Settled d (∀ x ∈ (Sweep.points s).numbers, x.isFinite) (.points ∈ d.analyses)
      (fun line => [line] = (dc { a with sweep := .points s }).statements d)
      (pointsText d a s) := by
  unfold pointsText
  cases d with
  | xyce | spectre =>
      exact settled_numbers (.done (by decide) (said_of_toList (by simp [Sweep.numbers, toString])))
  | spice | hspice | ngspice | verilog => exact .unable rfl (by decide)

theorem settled_ac (d : Dialect) (a : AcAnalysis) :
    Settled d ((a.start.isFinite ∧ a.stop.isFinite)
        ∧ 0 < a.start.value ∧ 0 < a.stop.value ∧ 0 < a.pointsPerDecade) (.ac ∈ d.analyses)
      (fun line => [line] = (ac a).statements d) (acText d a) := by
  unfold acText
  apply settled_range
  cases d with
  | spice | hspice | ngspice | xyce | spectre =>
      exact .done (by decide) (said_of_toList (by simp [toString]))
  | verilog => exact .unable rfl (by decide)

theorem settled_transient (d : Dialect) (a : TransientAnalysis) :
    Settled d (a.step.isFinite ∧ a.stop.isFinite) (a.initial = [] ∧ .transient ∈ d.analyses)
      (fun line => [line] = (transient a).statements d) (transientText d a) := by
  have checked : Settled d (a.step.isFinite ∧ a.stop.isFinite ∧ True)
      (¬ (!a.initial.isEmpty) = true ∧ .transient ∈ d.analyses)
      (fun line => [line] = (transient a).statements d) (transientText d a) := by
    unfold transientText
    apply Settled.without rfl
    apply settled_number
    apply settled_number
    cases d with
    | spice | hspice | ngspice | xyce | spectre =>
        exact .done (by decide) (said_of_toList (by simp [toString]))
    | verilog => exact .unable rfl (by decide)
  exact checked.congr (by simp) (by simp)

theorem settled_noise (d : Dialect) (a : NoiseAnalysis) :
    Settled d ((a.start.isFinite ∧ a.stop.isFinite)
        ∧ 0 < a.start.value ∧ 0 < a.stop.value ∧ 0 < a.pointsPerDecade) (.noise ∈ d.analyses)
      (fun line => [line] = (noise a).statements d) (noiseText d a) := by
  unfold noiseText
  cases d with
  | ngspice =>
      apply settled_range
      refine .done (by decide) (said_of_toList ?_)
      unfold noiseOutput
      by_cases ground : a.outputNegative = ""
      · simp [ground, toString]
      · simp [ground, toString]
  | spice | hspice | xyce | spectre | verilog => exact .unable rfl (by decide)

/-- The lines of an analysis that has a name and no controls. -/
def body (d : Dialect) : Analysis → Except Cause (List String)
  | operatingPoint a => operatingPointTexts d a
  | dc a => do return [← dcText d a]
  | ac a => do return [← acText d a]
  | transient a => do return [← transientText d a]
  | noise a => do return [← noiseText d a]
  | custom a => return [a.command]

theorem texts_eq_body (d : Dialect) (a : Analysis) :
    a.texts d = if a.name.isEmpty then throw (.invalidAnalysis "" .nameRequired)
      else if !a.controls.isEmpty then throw (d.unsupported .analysisControls)
      else a.body d := by
  unfold texts
  cases a <;> rfl

theorem settled_body (d : Dialect) (a : Analysis) :
    Settled d ((∀ x ∈ a.numbers, x.isFinite) ∧
        ∀ r ∈ a.range, 0 < r.1.value ∧ 0 < r.2.1.value ∧ 0 < r.2.2)
      ((a.form = .custom ∨ a.form ∈ d.analyses) ∧ a.initial = []) (· = a.statements d)
      (a.body d) := by
  cases a with
  | operatingPoint a =>
      exact (settled_operatingPoint d a).congr (by simp [numbers, range])
        (by simp [form, initial])
  | dc a =>
      obtain ⟨name, swept, sweep, controls⟩ := a
      cases sweep with
      | linear s =>
          have said := (settled_linear d ⟨name, swept, .linear s, controls⟩ s).statement
          exact said.congr (by simp [numbers, range]) (by simp [form, initial])
      | decade s =>
          have said := (settled_decade d ⟨name, swept, .decade s, controls⟩ s).statement
          exact said.congr (by simp [numbers, range]) (by simp [form, initial])
      | points s =>
          have said := (settled_points d ⟨name, swept, .points s, controls⟩ s).statement
          exact said.congr (by simp [numbers, range]) (by simp [form, initial])
  | ac a =>
      exact (settled_ac d a).statement.congr (by simp [numbers, range]) (by simp [form, initial])
  | transient a =>
      have known : (a.initial = [] ∧ .transient ∈ d.analyses) ↔
          (((transient a).form = .custom ∨ (transient a).form ∈ d.analyses)
            ∧ (transient a).initial = []) := by
        simp [form, initial, and_comm]
      -- the values that nodes start with are never looked at: they must not be there
      refine ((settled_transient d a).statement.congr Iff.rfl known).unread ?_ ?_
      · intro valid
        exact ⟨valid.1 a.step (by simp [numbers]), valid.1 a.stop (by simp [numbers])⟩
      · rintro ⟨step, stop⟩ ⟨-, resting⟩
        refine ⟨?_, by simp [range]⟩
        have none : a.initial = [] := resting
        simp [numbers, none, step, stop]
  | noise a =>
      exact (settled_noise d a).statement.congr (by simp [numbers, range]) (by simp [form, initial])
  | custom a =>
      have said : Settled d True True (· = (custom a).statements d) (pure [a.command]) := by
        refine .done trivial ?_
        cases d <;> rfl
      exact said.congr (by simp [numbers, range]) (by simp [form, initial])

theorem settled_texts (d : Dialect) (a : Analysis) :
    Settled d a.Valid (a.Expressible d) (· = a.statements d) (a.texts d) := by
  rw [texts_eq_body]
  refine (Settled.checked rfl (Settled.without rfl (settled_body d a))).congr ?_ ?_
  · constructor
    · rintro ⟨named, finite, ranged⟩
      exact ⟨by simpa using named, finite, ranged⟩
    · rintro ⟨named, finite, ranged⟩
      exact ⟨by simpa using named, finite, ranged⟩
  · constructor
    · rintro ⟨uncontrolled, known, resting⟩
      exact ⟨known, by simpa using uncontrolled, resting⟩
    · rintro ⟨known, uncontrolled, resting⟩
      exact ⟨by simpa using uncontrolled, known, resting⟩

end Analysis

/-! ### Sessions -/

/-- The statements as a session writes them. -/
def Session.stated (s : Session) (statements : List String) : String :=
  String.join (statements.map fun statement =>
    String.join (List.replicate s.depth s.options.indent) ++ statement ++ "\n")

theorem Session.shown_texts (s : Session) (statements : List String) :
    Session.shown s.depth s.options (statements.map (.text 0)) = s.stated statements := by
  rw [Session.shown, List.map_map]
  rfl

/-- An analysis that is written has its data in order, is one that the dialect has, and comes with
nothing that no dialect has. It is written in the words of the table, each statement with a line
end: there is one, or two where Xyce has no statement of its own, and the numbers are read back from
their texts. An analysis with its data in order is refused only for a feature that the dialect
lacks, then always, with nothing written; a sink that takes everything gets it otherwise. -/
theorem analysis_written_as_supported (s : Session) (a : Analysis) :
    ((s.writeAnalysis a).1 = .ok () → a.Valid ∧ a.Expressible s.dialect ∧
      (∀ x ∈ a.numbers, x.ReadFrom x.text) ∧
      (a.statements s.dialect).length = (if a.form = .operatingPoint ∧ s.dialect = .xyce then 2
        else 1) ∧
      (s.writeAnalysis a).2.sink.content
        = s.sink.content ++ (s.stated (a.statements s.dialect)).toUTF8) ∧
    (a.Valid →
      (∀ fault, (s.writeAnalysis a).1 = .error fault → fault.kind ≠ .output →
        ¬ a.Expressible s.dialect) ∧
      (¬ a.Expressible s.dialect → ∃ feature,
        s.writeAnalysis a = (.error (.plain (.unsupported s.dialect.format feature)), s)) ∧
      (a.Expressible s.dialect → s.sink.Unlimited → (s.writeAnalysis a).1 = .ok ())) := by
  have settled := a.settled_texts s.dialect
  refine ⟨?_, ?_⟩
  · intro written
    have result := (Session.accepted_of_run written).2
    cases texts : a.texts s.dialect with
    | error cause =>
        rw [Analysis.script, texts] at result
        cases result
    | ok statements =>
        obtain ⟨valid, able, rfl⟩ := settled.sound statements texts
        have lines : (a.script s.dialect).lines = (a.statements s.dialect).map (.text 0) := by
          rw [Analysis.script, texts]
          exact Script.lines_writeAll _
        have content := Session.content_of_run written
        rw [lines, s.shown_texts] at content
        refine ⟨valid, able, ?_, Analysis.length_statements able, content⟩
        intro x mem
        exact Double.readFrom_render netlistLayout (valid.finite x mem)
  · intro valid
    refine ⟨?_, ?_, ?_⟩
    · intro fault failed own able
      obtain ⟨statements, texts⟩ := settled.complete valid able
      have result := (Session.fault_of_run failed).resolve_left own
      rw [Analysis.script, texts] at result
      cases result
    · intro lacks
      obtain ⟨feature, texts⟩ := settled.refused valid lacks
      refine ⟨feature, ?_⟩
      rw [Session.writeAnalysis, Analysis.script, texts]
      rfl
    · intro able unlimited
      obtain ⟨statements, texts⟩ := settled.complete valid able
      have ends := (Session.run_of_unlimited unlimited (a.script s.dialect)).1
      rw [Session.writeAnalysis, ends, Analysis.script, texts]
      rfl

/-- The noise at a node between one hertz and a kilohertz. -/
def outputNoise : Analysis :=
  .noise {
    name := "n1", outputPositive := "out", inputSource := "in",
    start := ⟨0x3ff0000000000000⟩, stop := ⟨0x408f400000000000⟩, pointsPerDecade := 10 }

/-- One dialect writes it, all others of its family refuse it. -/
theorem analysis_written_as_supported_noise :
    outputNoise.Valid ∧
      (({ dialect := .ngspice } : Session).writeAnalysis outputNoise).1 = .ok () ∧
      (({ dialect := .ngspice } : Session).writeAnalysis outputNoise).2.sink.content
        = ".noise v(xtop.out) v.xtop.vin dec 10 1.0 1000.0\n".toUTF8 ∧
      ∀ d ∈ [Dialect.spice, .hspice, .xyce], ∃ feature,
        ({ dialect := d } : Session).writeAnalysis outputNoise
          = (.error (.plain (.unsupported d.format feature)), { dialect := d }) := by
  have finite : ∀ x ∈ outputNoise.numbers, x.isFinite := by decide
  have valid : outputNoise.Valid := by
    refine ⟨by decide, finite, ?_⟩
    rintro r ⟨⟩
    refine ⟨?_, ?_, by decide⟩
    · exact (Double.value_pos_iff (by decide)).mpr (by decide)
    · exact (Double.value_pos_iff (by decide)).mpr (by decide)
  have able : outputNoise.Expressible .ngspice := ⟨.inr (by decide), rfl, rfl⟩
  have written := ((analysis_written_as_supported { dialect := .ngspice } outputNoise).2 valid).2.2
    able ⟨rfl, rfl⟩
  refine ⟨valid, written, ?_, ?_⟩
  · have said : outputNoise.statements .ngspice
        = [".noise v(xtop.out) v.xtop.vin dec 10 1.0 1000.0"] := by decide +kernel
    rw [((analysis_written_as_supported { dialect := .ngspice } outputNoise).1 written).2.2.2.2,
      said]
    rfl
  · intro d mem
    have lacks : ¬ outputNoise.Expressible d := by
      rintro ⟨known, -, -⟩
      revert d
      decide
    exact ((analysis_written_as_supported { dialect := d } outputNoise).2 valid).2.1 lacks

end CircuitNetlist
