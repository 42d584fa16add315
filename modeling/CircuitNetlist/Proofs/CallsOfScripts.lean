import CircuitNetlist.Proofs.ScopeCalls
import CircuitNetlist.Proofs.WrittenNetlists
import CircuitNetlist.Session.Basic

/-!
# The calls that a write makes

A package is written by calls of one scope: its external modules are registered, then each module is
defined and the references of its instances are resolved. A fault ends the calls early, and a sink
that refuses a line ends the session's share of them even earlier. In both cases what is left behind
is the scope after some first part of the calls, and after a good end all of them have been
answered.
-/
namespace CircuitNetlist

/-- The scope that is entered, if the event is one of entering. -/
def Event.scope? (e : Event) : Option Scope :=
  match e.action with
  | .enter scope => some scope
  | _ => none

namespace Scope

/-- The scopes behind the calls, each in turn. -/
def trail (s : Scope) : List Call → List Scope
  | [] => []
  | c :: cs => s.after c :: (s.after c).trail cs

theorem trail_append (s : Scope) (calls more : List Call) :
    s.trail (calls ++ more) = s.trail calls ++ (s.run calls).trail more := by
  induction calls generalizing s with
  | nil => rfl
  | cons c cs ih => exact congrArg (s.after c :: ·) (ih (s.after c))

theorem trail_take (s : Scope) (calls : List Call) (n : Nat) :
    (s.trail calls).take n = s.trail (calls.take n) := by
  induction calls generalizing s n with
  | nil => simp [trail]
  | cons c cs ih =>
      cases n with
      | zero => rfl
      | succ n => exact congrArg (s.after c :: ·) (ih (s.after c) n)

theorem getLast_trail (s : Scope) (calls : List Call) :
    (s.trail calls).getLast?.getD s = s.run calls := by
  induction calls generalizing s with
  | nil => rfl
  | cons c cs ih =>
      rw [trail, List.getLast?_cons, run_cons, ← ih]
      rfl

end Scope

open Scope

namespace Script
variable {α : Type}

/-- The scopes that a script goes through. -/
def entered (m : Script α) : List Scope :=
  m.events.filterMap Event.scope?

/-- A script makes calls, one after the other and from the first on; if it ends well it has made all
of them and none has failed. -/
structure Makes (m : Script Scope) (s : Scope) (calls : List Call) : Prop where
  started : ∃ made, made <+: calls ∧ m.entered = s.trail made
  finished : ∀ after, m.result = .ok after →
    m.entered = s.trail calls ∧ after = s.run calls ∧ (s.history calls).answered = calls

theorem result_check_eq_ok {step : Except Cause α} {a : α} :
    (check step).result = .ok a ↔ step = .ok a := by
  cases step with
  | error cause => simp [check, fail]
  | ok b => simp [check]

/-! ### What enters no scope -/

@[simp] theorem entered_check {step : Except Cause α} : (check step).entered = [] := by
  cases step with
  | error cause => rfl
  | ok a => rfl

@[simp] theorem entered_log {level : LogLevel} {text : String} : (log level text).entered = [] :=
  rfl

@[simp] theorem entered_flush : flush.entered = [] :=
  rfl

@[simp] theorem entered_writeAll {lines : List Line} : (writeAll lines).entered = [] := by
  simp [entered, writeAll, Event.scope?]

@[simp] theorem entered_write {line : Line} : (write line).entered = [] :=
  rfl

/-! ### Sequences -/

section Sequences
variable {s next : Scope} {calls more : List Call}

theorem entered_bind_of_ok {β : Type} {m : Script α} {f : α → Script β} {a : α}
    (h : m.result = .ok a) : (m >>= f).entered = m.entered ++ (f a).entered := by
  rw [bind_of_ok h]
  exact List.filterMap_append

theorem makes_pure : (pure s : Script Scope).Makes s [] := by
  refine ⟨⟨[], List.nil_prefix, rfl⟩, ?_⟩
  intro after same
  obtain rfl := Except.ok.inj same
  exact ⟨rfl, rfl, rfl⟩

theorem Makes.within {m : Script Scope} (h : m.Makes s calls) (place : Place) :
    (m.within place).Makes s calls := by
  have same : (m.within place).entered = m.entered := List.filterMap_map
  refine ⟨same ▸ h.started, ?_⟩
  intro after ok
  rw [same]
  apply h.finished
  cases result : m.result with
  | error fault => simp [Script.within, result, Except.mapError] at ok
  | ok a => simpa [Script.within, result, Except.mapError] using ok

theorem entered_bind_of_silent {β : Type} {m : Script α} {f : α → Script β}
    (silent : m.entered = []) (rest : ∀ a, (f a).entered = []) : (m >>= f).entered = [] := by
  cases result : m.result with
  | error fault =>
      rw [bind_of_error result]
      exact silent
  | ok a => rw [entered_bind_of_ok result, silent, rest a, List.nil_append]

/-- What enters no scope may stand in front. -/
theorem makes_bind_of_silent {m : Script α} {f : α → Script Scope} (silent : m.entered = [])
    (rest : ∀ a, m.result = .ok a → (f a).Makes s calls) : (m >>= f).Makes s calls := by
  cases result : m.result with
  | error fault =>
      rw [bind_of_error result]
      refine ⟨⟨[], List.nil_prefix, silent⟩, ?_⟩
      intro after ok
      cases ok
  | ok a =>
      have made := rest a result
      have same : (m >>= f).entered = (f a).entered := by
        rw [entered_bind_of_ok result, silent, List.nil_append]
      refine ⟨same ▸ made.started, ?_⟩
      intro after ok
      rw [bind_of_ok result] at ok
      exact same ▸ made.finished after ok

/-- A use of the scope is a call, and the scope behind it is entered also where the call fails. -/
theorem makes_use_bind {γ : Type} {step : Except Cause γ × Scope} {answer : γ → Answer}
    {f : γ × Scope → Script Scope} {c : Call} (replied : s.reply c = answering answer step)
    (rest : ∀ a, step.1 = .ok a → (f (a, step.2)).Makes step.2 calls) :
    (use step >>= f).Makes s (c :: calls) := by
  have behind : s.after c = step.2 := by
    rw [Scope.after, replied]
    rfl
  rw [use_bind]
  cases outcome : step.1 with
  | error cause =>
      refine ⟨⟨[c], List.cons_prefix_cons.mpr ⟨rfl, List.nil_prefix⟩, ?_⟩, ?_⟩
      · rw [trail, behind]
        rfl
      · intro after ok
        cases ok
  | ok a =>
      have made := rest a outcome
      have same : (enter step.2 >>= fun _ => check (.ok a) >>= fun a => f (a, step.2)).entered
          = step.2 :: (f (a, step.2)).entered := rfl
      obtain ⟨calls', first, entered⟩ := made.started
      refine ⟨⟨c :: calls', List.cons_prefix_cons.mpr ⟨rfl, first⟩, ?_⟩, ?_⟩
      · rw [same, entered, trail, behind]
      · intro after ok
        obtain ⟨all, last, others⟩ := made.finished after ok
        refine ⟨by rw [same, all, trail, behind], by rw [last, run_cons, behind], ?_⟩
        rw [history, behind, replied, answering, outcome]
        exact congrArg (c :: ·) others

/-- One script after the other: the calls of the second are made behind those of the first. -/
theorem Makes.bind {m : Script Scope} {f : Scope → Script Scope} (h : m.Makes s calls)
    (rest : ∀ after, (f after).Makes after more) : (m >>= f).Makes s (calls ++ more) := by
  cases result : m.result with
  | error fault =>
      obtain ⟨made, first, entered⟩ := h.started
      rw [bind_of_error result]
      refine ⟨⟨made, first.trans (List.prefix_append _ _), entered⟩, ?_⟩
      intro after ok
      cases ok
  | ok between =>
      obtain ⟨all, rfl, answered⟩ := h.finished between result
      have made := rest (s.run calls)
      obtain ⟨others, first, entered⟩ := made.started
      refine ⟨⟨calls ++ others, (List.prefix_append_right_inj calls).mpr first, ?_⟩, ?_⟩
      · rw [entered_bind_of_ok result, all, entered, trail_append]
      · intro after ok
        rw [bind_of_ok result] at ok
        obtain ⟨all', last, answered'⟩ := made.finished after ok
        refine ⟨?_, ?_, ?_⟩
        · rw [entered_bind_of_ok result, all, all', trail_append]
        · rw [last, run_append]
        · rw [history_append, History.answered_append, answered, answered']

/-- A run over a list makes the calls of its elements in order. -/
theorem makes_foldlM {step : Scope → α → Script Scope} {callsOf : α → List Call}
    (one : ∀ s x, (step s x).Makes s (callsOf x)) (xs : List α) (s : Scope) :
    (xs.foldlM step s).Makes s (xs.flatMap callsOf) := by
  induction xs generalizing s with
  | nil => exact makes_pure
  | cons x xs ih =>
      rw [List.foldlM_cons, List.flatMap_cons]
      exact (one s x).bind ih

end Sequences

end Script

open Script

/-! ### The calls of a package -/

def Module.calls (m : Module) : List Call :=
  .define m :: m.instances.flatMap fun i => [.resolve i.reference]

def Package.calls (p : Package) : List Call :=
  (p.externals.flatMap fun m => [.register m]) ++ p.modules.flatMap Module.calls

theorem entered_warnUndeclared (names : List String) : (warnUndeclared names).entered = [] := by
  induction names with
  | nil => rfl
  | cons name names ih => exact ih

theorem Instance.makes_script (d : Dialect) (t : SignalTable) (s : Scope) (i : Instance) :
    (i.script d t s).Makes s [.resolve i.reference] := by
  unfold Instance.script
  apply Makes.within
  apply makes_use_bind rfl
  intro target _
  -- nothing behind the call enters a scope
  apply makes_bind_of_silent entered_check
  intro params _
  apply makes_bind_of_silent (entered_warnUndeclared _)
  intro _ _
  apply makes_bind_of_silent entered_check
  intro bindings _
  apply makes_bind_of_silent entered_log
  intro _ _
  apply makes_bind_of_silent entered_check
  intro lines _
  apply makes_bind_of_silent entered_writeAll
  intro _ _
  exact makes_pure

theorem Instance.makes_scriptAll (d : Dialect) (t : SignalTable) (s : Scope) (is : List Instance) :
    (Instance.scriptAll d t s is).Makes s (is.flatMap fun i => [.resolve i.reference]) :=
  makes_foldlM (Instance.makes_script d t) is s

theorem Module.entered_openingScript (d : Dialect) (m : Module) (name : String)
    (t : SignalTable) : (m.openingScript d name t).entered = [] := by
  have opened : ∀ (head nodes gap : Line) (parameters : Except Cause Line),
      (write head >>= fun _ => write nodes >>= fun _ => check parameters >>= fun line =>
        write line >>= fun _ => write gap).entered = [] := by
    intro head nodes gap parameters
    apply entered_bind_of_silent entered_write
    intro _
    apply entered_bind_of_silent entered_write
    intro _
    apply entered_bind_of_silent entered_check
    intro line
    apply entered_bind_of_silent entered_write
    intro _
    exact entered_write
  unfold openingScript
  cases d.family with
  | spice => apply opened
  | spectre => apply opened
  | verilog =>
      apply entered_bind_of_silent entered_write
      intro _
      apply entered_bind_of_silent entered_check
      intro parameters
      apply entered_bind_of_silent entered_writeAll
      intro _
      apply entered_bind_of_silent entered_check
      intro ports
      apply entered_bind_of_silent entered_writeAll
      intro _
      apply entered_bind_of_silent entered_write
      intro _
      apply entered_bind_of_silent entered_writeAll
      intro _
      apply entered_bind_of_silent entered_write
      intro _
      exact entered_write

theorem Module.makes_layout (d : Dialect) (m : Module) (name : String) (t : SignalTable)
    (s : Scope) :
    (m.layout d name t s).Makes s (m.instances.flatMap fun i => [.resolve i.reference]) := by
  rw [m.layout_eq]
  apply makes_bind_of_silent (m.entered_openingScript d name t)
  intro _ _
  rw [← List.append_nil (m.instances.flatMap _)]
  apply (Instance.makes_scriptAll d t s m.instances).bind
  intro after
  apply makes_bind_of_silent entered_writeAll
  intro _ _
  exact makes_pure

theorem Module.makes_script (d : Dialect) (s : Scope) (m : Module) :
    (m.script d s).Makes s m.calls := by
  unfold Module.script
  apply Makes.within
  apply makes_use_bind rfl
  intro name _
  apply makes_bind_of_silent entered_check
  intro t _
  apply makes_bind_of_silent entered_log
  intro _ _
  exact m.makes_layout d name t _

theorem ExternalModule.makes_script (s : Scope) (m : ExternalModule) :
    (m.script s).Makes s [.register m] := by
  unfold ExternalModule.script
  apply makes_bind_of_silent entered_check
  intro _ fresh
  apply makes_bind_of_silent entered_log
  intro _ _
  have replied : s.reply (.register m) = answering (fun _ => .registered) (s.addExternal m) := by
    rw [Scope.reply, register, result_check_eq_ok.mp fresh]
  apply makes_use_bind replied
  intro _ _
  exact makes_pure

theorem Package.makes_script (d : Dialect) (options : Options) (s : Scope) (p : Package) :
    (p.script d options s).Makes s p.calls := by
  unfold Package.script
  apply (makes_foldlM ExternalModule.makes_script p.externals s).bind
  intro registered
  apply makes_bind_of_silent entered_writeAll
  intro _ _
  rw [← List.append_nil (p.modules.flatMap _)]
  apply (makes_foldlM (Module.makes_script d) p.modules registered).bind
  intro after
  apply makes_bind_of_silent entered_flush
  intro _ _
  apply makes_bind_of_silent entered_log
  intro _ _
  exact makes_pure

/-! ### The calls of a session -/

namespace Session

theorem scope_perform (base : Nat) (s : Session) (event : Event) :
    (s.perform base event.action).1.scope = event.scope?.getD s.scope := by
  rcases event with ⟨places, action⟩
  cases action with
  | write line => rfl
  | log record => rfl
  | enter scope => rfl
  | flush => rfl

/-- However far a session gets, its scope is the last one entered on the way. -/
theorem scope_play (base : Nat) (s : Session) (events : List Event) :
    ∃ seen, seen <+: events.filterMap Event.scope? ∧
      (s.play base events).1.scope = seen.getLast?.getD s.scope := by
  induction events generalizing s with
  | nil => exact ⟨[], List.nil_prefix, rfl⟩
  | cons event events ih =>
      have one := scope_perform base s event
      have entering : (event :: events).filterMap Event.scope?
          = event.scope?.toList ++ events.filterMap Event.scope? := by
        cases here : event.scope? with
        | none => simp [here]
        | some scope => simp [here]
      have last_of : ∀ seen : List Scope, (event.scope?.toList ++ seen).getLast?.getD s.scope
          = seen.getLast?.getD (event.scope?.getD s.scope) := by
        intro seen
        cases event.scope? with
        | none => rfl
        | some scope => simp [List.getLast?_cons]
      rw [entering, play]
      cases performed : s.perform base event.action with
      | mk next refused =>
          rw [performed] at one
          cases refused with
          | none =>
              obtain ⟨seen, first, last⟩ := ih next
              refine ⟨event.scope?.toList ++ seen, ?_, ?_⟩
              · exact (List.prefix_append_right_inj _).mpr first
              · rw [last_of, ← one]
                exact last
          | some fault =>
              refine ⟨event.scope?.toList ++ [], ?_, ?_⟩
              · exact (List.prefix_append_right_inj _).mpr List.nil_prefix
              · rw [last_of, ← one]
                rfl

/-- Where the scopes entered are those behind some calls, a session is left behind some first
ones. -/
theorem scope_play_of_trail (s : Session) (base : Nat) {events : List Event} {calls : List Call}
    (within : events.filterMap Event.scope? <+: s.scope.trail calls) :
    ∃ made, made <+: calls ∧ (s.play base events).1.scope = s.scope.run made := by
  obtain ⟨seen, first, last⟩ := scope_play base s events
  have part := first.trans within
  rw [List.prefix_iff_eq_take, trail_take] at part
  refine ⟨calls.take seen.length, List.take_prefix _ _, ?_⟩
  rw [last, ← getLast_trail, ← part]

theorem scope_run {m : Script Scope} {calls : List Call} (s : Session)
    (h : m.Makes s.scope calls) :
    ∃ made, made <+: calls ∧ (s.run m).2.scope = s.scope.run made := by
  obtain ⟨all, within, entered⟩ := h.started
  have trail : m.events.filterMap Event.scope? <+: s.scope.trail all := by
    rw [← entered]
    exact List.prefix_refl _
  obtain ⟨made, first, last⟩ := scope_play_of_trail s s.depth trail
  refine ⟨made, first.trans within, ?_⟩
  rw [← last]
  unfold run
  cases played : s.play s.depth m.events with
  | mk after fault =>
      cases fault with
      | some fault => rfl
      | none =>
          cases result : m.result with
          | error fault => rfl
          | ok value => rfl

end Session

end CircuitNetlist
