import CircuitNetlist.Proofs.CountedDepths

/-!
# Indentation

The lines of a netlist and their depths do not depend on what a level is indented by; the text puts
the indentation in front of each line as often as the line is deep. A call that ends well leaves the
depth as it was, and one that fails leaves it at the last line that it tried to write, which is no
deeper than the family nests its lines.
-/
namespace CircuitNetlist

open Script

/-! ### Texts -/

/-- A line's depth and its content; a blank line has neither. -/
def Line.indentable : Line → Nat × String
  | .text depth content => (depth, content)
  | .blank _ => (0, "")

/-- Every line behind as many indentations as it is deep. -/
def indented (indent : String) (lines : List (Nat × String)) : String :=
  String.join (lines.map fun line => String.join (List.replicate line.1 indent) ++ line.2 ++ "\n")

theorem Line.indentable_depth_le (line : Line) : line.indentable.1 ≤ line.depth := by
  cases line with
  | text depth content => exact Nat.le_refl depth
  | blank depth => exact Nat.zero_le depth

theorem Session.shown_eq_indented (options : Options) (lines : List Line) :
    shown 0 options lines = indented options.indent (lines.map Line.indentable) := by
  unfold shown indented
  rw [List.map_map]
  apply congrArg String.join
  apply List.map_congr_left
  intro line _
  cases line with
  | text depth content => simp [Line.shift, Line.render, Line.indentable]
  | blank depth => simp [Line.shift, Line.render, Line.indentable]

/-- Nothing that is asked for depends on what a level is indented by. -/
theorem Request.script_indent (d : Dialect) (header : List String) (scope : Scope) (r : Request)
    (indent indent' : String) :
    r.script d { indent, header } scope = r.script d { indent := indent', header } scope := by
  cases r <;> rfl

/-! ### Depths behind calls -/

namespace Session

/-- However far a run of lines gets, its depth is at most that of the deepest line. -/
theorem depth_play {base levels : Nat} {s : Session} {events : List Event}
    (nested : ∀ e ∈ events, ∀ line, e.action = .write line → line.depth ≤ levels)
    (start : base ≤ s.depth ∧ s.depth ≤ base + levels) :
    base ≤ (s.play base events).1.depth ∧ (s.play base events).1.depth ≤ base + levels := by
  induction events generalizing s with
  | nil => exact start
  | cons e events ih =>
      rw [List.forall_mem_cons] at nested
      have next : base ≤ (s.perform base e.action).1.depth
          ∧ (s.perform base e.action).1.depth ≤ base + levels := by
        cases action : e.action with
        | write line =>
            exact ⟨Nat.le_add_right _ _, Nat.add_le_add_left (nested.1 line action) base⟩
        | log record => exact start
        | enter scope => exact start
        | flush => exact start
      rw [play]
      cases performed : s.perform base e.action with
      | mk after refused =>
          rw [performed] at next
          cases refused with
          | some refusal => exact next
          | none => exact ih nested.2 next

theorem dialect_play (base : Nat) (s : Session) (events : List Event) :
    (s.play base events).1.dialect = s.dialect := by
  induction events generalizing s with
  | nil => rfl
  | cons e events ih =>
      have same : (s.perform base e.action).1.dialect = s.dialect := by
        cases e.action <;> rfl
      rw [play]
      cases performed : s.perform base e.action with
      | mk after refused =>
          rw [performed] at same
          cases refused with
          | some refusal => exact same
          | none => exact (ih after).trans same

theorem dialect_answer (s : Session) (r : Request) : (s.answer r).2.dialect = s.dialect := by
  rw [answer_eq_run, run_eq_ending, ending_eq]
  exact dialect_play _ _ _

/-- What is seen of one call: the depth in front of it, how it ends and the depth behind it. -/
structure Turn where
  before : Nat
  result : Except Fault Unit
  after : Nat

/-- A good end leaves the depth as it was, and a fault leaves it at most so many levels deeper. -/
def Turn.Bounded (levels : Nat) (t : Turn) : Prop :=
  match t.result with
  | .ok _ => t.after = t.before
  | .error _ => t.before ≤ t.after ∧ t.after ≤ t.before + levels

/-- The turns of calls, each under its own options, by writers that keep the depth in a counter.
There are none if one of them lowers a counter that is at zero. -/
def turns (s : Session) : List (Options × Request) → Option (List Turn)
  | [] => some []
  | (options, r) :: calls => do
    let (result, next) ← r.counted s.dialect options s.scope { s with options }
    return ⟨s.depth, result, next.depth⟩ :: (← next.turns calls)

theorem bounded_answer (s : Session) (r : Request) :
    Turn.Bounded s.dialect.family.levels ⟨s.depth, (s.answer r).1, (s.answer r).2.depth⟩ := by
  have nested : ∀ e ∈ (r.script s.dialect s.options s.scope).events, ∀ line,
      e.action = .write line → line.depth ≤ s.dialect.family.levels := by
    intro e mem line written
    apply (r.only_script s.dialect s.options s.scope).all
    exact List.mem_filterMap.mpr ⟨e, mem, by rw [written]⟩
  have played := depth_play nested ⟨Nat.le_refl s.depth, Nat.le_add_right _ _⟩
  rw [answer_eq_run, run_eq_ending]
  cases (s.play s.depth (r.script s.dialect s.options s.scope).events).2 with
  | some fault => exact played
  | none =>
      cases (r.script s.dialect s.options s.scope).result with
      | error fault => exact played
      | ok _ => exact rfl

/-- Every call of a session has its turn, and each turn is bounded. -/
theorem bounded_turns (s : Session) (calls : List (Options × Request)) :
    ∃ turns, s.turns calls = some turns ∧ turns.length = calls.length ∧
      ∀ t ∈ turns, t.Bounded s.dialect.family.levels := by
  induction calls generalizing s with
  | nil => exact ⟨[], rfl, rfl, List.forall_mem_nil _⟩
  | cons call calls ih =>
      obtain ⟨options, r⟩ := call
      have first := counted_eq_answer { s with options } r
      have bound := bounded_answer { s with options } r
      obtain ⟨others, run, length, rest⟩ := ih ({ s with options }.answer r).2
      rw [dialect_answer] at rest
      refine ⟨_, ?_, congrArg (· + 1) length, List.forall_mem_cons.mpr ⟨bound, rest⟩⟩
      rw [turns, first]
      change (do return _ :: (← ({ s with options }.answer r).2.turns calls)) = _
      rw [run]
      rfl

end Session

/-- For every request, dialect and header there is one list of lines with their depths, and the text
under any indentation is that list, each line behind as many indentations as it is deep. In every
session the depth stays the same over a call that ends well, and over one that fails it grows by no
more than the lines of the dialect's family are nested; the counter that it is kept in is never
lowered at zero. -/
theorem indentation_is_bounded (d : Dialect) (header : List String) (r : Request) (s : Session)
    (calls : List (Options × Request)) :
    (∃ lines : List (Nat × String),
      (∀ indent, (r.reply d.format { indent, header } {}).text = (indented indent lines).toUTF8) ∧
        ∀ line ∈ lines, line.1 ≤ d.family.levels) ∧
    ∃ turns, s.turns calls = some turns ∧ turns.length = calls.length ∧
      ∀ t ∈ turns, t.Bounded s.dialect.family.levels := by
  refine ⟨?_, s.bounded_turns calls⟩
  refine ⟨(r.script d { header } .empty).lines.map Line.indentable, ?_, ?_⟩
  · intro indent
    rw [Request.text_of_unlimited, Session.shown_eq_indented, r.script_indent d header .empty]
  · rw [List.forall_mem_map]
    intro line mem
    exact Nat.le_trans line.indentable_depth_le ((r.only_script d { header } .empty).all line mem)

end CircuitNetlist
