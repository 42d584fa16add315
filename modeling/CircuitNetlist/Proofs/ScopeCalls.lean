import CircuitNetlist.Proofs.ResolvedReferences

/-!
# Histories of a scope

A scope is used by calls that register, define or resolve, in any order and whether they succeed or
not. A history is the calls with their answers; what has been defined and registered is read off
it. The order of a scope is kept by every call, hence by every history, so that the answers to later
calls are decided by the history alone.
-/
namespace CircuitNetlist

namespace Scope

inductive Call where
  | register (m : ExternalModule)
  | define (m : Module)
  | resolve (reference : Reference)
deriving DecidableEq, Repr

inductive Answer where
  | registered
  | defined (name : String)
  | resolved (target : Resolved)
deriving DecidableEq, Repr

/-- An answer in place of what has come of a use of a scope. -/
def answering {α : Type} (answer : α → Answer) (step : Except Cause α × Scope) :
    Except Cause Answer × Scope :=
  (step.1.map answer, step.2)

/-- What comes of a call, and the scope behind it. -/
def reply (s : Scope) : Call → Except Cause Answer × Scope
  | .register m => answering (fun _ => .registered) (s.register m)
  | .define m => answering .defined (s.define m)
  | .resolve reference => answering .resolved (s.resolve reference)

/-- The scope behind a call, whether it fails or not. -/
def after (s : Scope) (c : Call) : Scope :=
  (s.reply c).2

/-- The scope behind calls, one after the other. -/
def run (s : Scope) (calls : List Call) : Scope :=
  calls.foldl after s

/-- Calls with their answers. -/
abbrev History := List (Call × Except Cause Answer)

def history (s : Scope) : List Call → History
  | [] => []
  | c :: cs => (c, (s.reply c).1) :: (s.after c).history cs

def Call.module? : Call → Option Module
  | .define m => some m
  | _ => none

def Call.external? : Call → Option ExternalModule
  | .register m => some m
  | _ => none

/-- The calls that have not failed. -/
def History.answered (h : History) : List Call :=
  h.filterMap fun
    | (c, .ok _) => some c
    | _ => none

/-- The modules whose definition succeeded. -/
def History.defined (h : History) : List Module :=
  h.answered.filterMap Call.module?

/-- The external modules whose registration succeeded. -/
def History.registered (h : History) : List ExternalModule :=
  h.answered.filterMap Call.external?

/-! ### One call -/

section Step
variable {s next : Scope} {a : Answer} {m : Module} {e : ExternalModule} {reference : Reference}

theorem answering_eq_ok {α : Type} {answer : α → Answer} {step : Except Cause α × Scope} :
    answering answer step = (.ok a, next) ↔ ∃ x, a = answer x ∧ step = (.ok x, next) := by
  rcases step with ⟨_ | x, left⟩
  · simp [answering, Except.map]
  · simp [answering, Except.map, eq_comm]

theorem answering_eq_error {α : Type} {answer : α → Answer} {step : Except Cause α × Scope}
    {cause : Cause} :
    answering answer step = (.error cause, next) ↔ step = (.error cause, next) := by
  rcases step with ⟨_ | x, left⟩
  · simp [answering, Except.map]
  · simp [answering, Except.map]

theorem reply_register_eq_ok :
    s.reply (.register e) = (.ok a, next) ↔ a = .registered ∧ s.register e = (.ok (), next) := by
  rw [reply, answering_eq_ok]
  exact ⟨fun ⟨_, same, ok⟩ => ⟨same, ok⟩, fun ⟨same, ok⟩ => ⟨(), same, ok⟩⟩

theorem reply_define_eq_ok :
    s.reply (.define m) = (.ok a, next) ↔
      ∃ name, a = .defined name ∧ s.define m = (.ok name, next) :=
  answering_eq_ok

theorem reply_resolve_eq_ok :
    s.reply (.resolve reference) = (.ok a, next) ↔
      ∃ target, a = .resolved target ∧ s.resolve reference = (.ok target, next) :=
  answering_eq_ok

/-- A call that fails leaves the scope as it was. -/
theorem reply_unchanged {c : Call} {cause : Cause} (failed : s.reply c = (.error cause, next)) :
    next = s := by
  cases c with
  | register e => exact register_unchanged (answering_eq_error.mp failed)
  | define m => exact define_unchanged (answering_eq_error.mp failed)
  | resolve reference => exact resolve_unchanged (answering_eq_error.mp failed)

/-- Resolving changes nothing, whether it fails or not. -/
theorem InOrder.after_resolve (h : s.InOrder) (reference : Reference) :
    s.after (.resolve reference) = s := by
  change (s.resolve reference).2 = s
  rcases resolved : s.resolve reference with ⟨cause | target, next⟩
  · exact resolve_unchanged resolved
  · exact (h.resolve_eq_ok.mp resolved).2

/-- A call adds at most the one module that it defines or registers, and keeps the scope in
order. -/
theorem InOrder.after {c : Call} (h : s.InOrder) : (s.after c).InOrder := by
  rcases replied : s.reply c with ⟨cause | a, next⟩
  · rw [Scope.after, replied, reply_unchanged replied]
    exact h
  · rw [Scope.after, replied]
    cases c with
    | register e => exact h.register (reply_register_eq_ok.mp replied).2
    | define m =>
        obtain ⟨name, -, ok⟩ := reply_define_eq_ok.mp replied
        exact h.define ok
    | resolve reference =>
        obtain ⟨target, -, ok⟩ := reply_resolve_eq_ok.mp replied
        obtain ⟨-, rfl⟩ := h.resolve_eq_ok.mp ok
        exact h

end Step

/-! ### Whole histories -/

section Runs
variable {s : Scope}

theorem run_cons (c : Call) (cs : List Call) : s.run (c :: cs) = (s.after c).run cs := rfl

theorem run_append (cs more : List Call) : s.run (cs ++ more) = (s.run cs).run more :=
  List.foldl_append

theorem history_append (cs more : List Call) :
    s.history (cs ++ more) = s.history cs ++ (s.run cs).history more := by
  induction cs generalizing s with
  | nil => rfl
  | cons c cs ih =>
      have rest := ih (s := s.after c)
      simp only [List.cons_append, history, run_cons, rest]

theorem InOrder.run (h : s.InOrder) (calls : List Call) : (s.run calls).InOrder := by
  induction calls generalizing s with
  | nil => exact h
  | cons c cs ih => exact ih h.after

theorem History.answered_append (h more : History) :
    (h ++ more).answered = h.answered ++ more.answered :=
  List.filterMap_append

theorem History.defined_append (h more : History) :
    (h ++ more).defined = h.defined ++ more.defined := by
  rw [defined, answered_append, List.filterMap_append]
  rfl

theorem History.registered_append (h more : History) :
    (h ++ more).registered = h.registered ++ more.registered := by
  rw [registered, answered_append, List.filterMap_append]
  rfl

/-- One call: what it adds is what its own history says. -/
theorem InOrder.known_after (h : s.InOrder) (c : Call) :
    (s.after c).modules = (s.history [c]).defined.reverse ++ s.modules ∧
      (s.after c).externals = (s.history [c]).registered.reverse ++ s.externals := by
  unfold history Scope.after
  rcases replied : s.reply c with ⟨cause | a, next⟩
  · -- a refused call is in no list, and it leaves the scope before it
    rw [reply_unchanged replied]
    exact ⟨rfl, rfl⟩
  · cases c with
    | register m =>
        have registered := (reply_register_eq_ok.mp replied).2
        refine ⟨(keeps_of_register registered).modules, ?_⟩
        obtain ⟨-, name, claimed, one, rfl⟩ := register_eq_ok.mp registered
        exact congrArg (m :: ·) (claimed_of_claimExternal one).externals
    | define m =>
        obtain ⟨name, -, defined⟩ := reply_define_eq_ok.mp replied
        obtain ⟨-, -, table, -, rfl⟩ := define_eq_ok.mp defined
        exact ⟨rfl, rfl⟩
    | resolve reference =>
        obtain ⟨target, -, resolved⟩ := reply_resolve_eq_ok.mp replied
        obtain ⟨-, rfl⟩ := h.resolve_eq_ok.mp resolved
        exact ⟨rfl, rfl⟩

/-- Nothing but its history is known in a scope, and everything in that, the last first. -/
theorem InOrder.known_run (h : s.InOrder) (calls : List Call) :
    (s.run calls).modules = (s.history calls).defined.reverse ++ s.modules ∧
      (s.run calls).externals = (s.history calls).registered.reverse ++ s.externals := by
  induction calls generalizing s with
  | nil => exact ⟨rfl, rfl⟩
  | cons c cs ih =>
      have split := history_append (s := s) [c] cs
      have first := h.known_after c
      have rest := ih (h.after (c := c))
      rw [List.singleton_append] at split
      rw [run_cons, split, History.defined_append, History.registered_append, rest.1, rest.2,
        first.1, first.2]
      simp only [List.reverse_append, List.append_assoc]
      exact ⟨rfl, rfl⟩

/-- A scope that starts empty knows exactly what its calls have defined and registered. -/
theorem mem_modules_run {calls : List Call} {m : Module} :
    m ∈ (empty.run calls).modules ↔ m ∈ (empty.history calls).defined := by
  rw [(inOrder_empty.known_run calls).1]
  simp [empty]

theorem mem_externals_run {calls : List Call} {m : ExternalModule} :
    m ∈ (empty.run calls).externals ↔ m ∈ (empty.history calls).registered := by
  rw [(inOrder_empty.known_run calls).2]
  simp [empty]

end Runs

/-! ### References after calls -/

section References
variable {calls : List Call} {reference : Reference} {target : Resolved}

theorem standsFor_run :
    StandsFor (empty.run calls).modules (empty.run calls).externals reference target ↔
      StandsFor (empty.history calls).defined (empty.history calls).registered
        reference target := by
  constructor
  · apply StandsFor.mono
    · intro m
      exact mem_modules_run.mp
    · intro m
      exact mem_externals_run.mp
  · apply StandsFor.mono
    · intro m
      exact mem_modules_run.mpr
    · intro m
      exact mem_externals_run.mpr

/-- A reference that stands for nothing is never a clash of names, and the table of ideal elements
has none that is of the wrong kind. -/
theorem unresolved_cases (reference : Reference) :
    (∀ space name first second, reference.unresolved ≠ .nameConflict space name first second) ∧
      ∀ name kind, reference.unresolved ≠ .invalidPrimitive name kind := by
  cases reference with
  | internal name => simp [Reference.unresolved]
  | external q =>
      unfold Reference.unresolved
      by_cases ideal : q.domain = Primitive.idealDomain
      · simp [ideal]
      · by_cases physical : q.domain = Primitive.physicalDomain
        · simp [physical, Primitive.idealDomain, Primitive.physicalDomain]
        · simp [ideal, physical]

/-- After any calls a reference stands for what they have defined and registered. Resolving it gives
that, or says what is wrong with the reference; it never changes the scope, and never fails for the
netlist name, which is claimed again at each use. Names in the two privileged domains do not depend
on the calls. -/
theorem resolve_decided_by_history (calls : List Call) :
    let s := empty.run calls
    let h := empty.history calls
    (∀ reference, s.after (.resolve reference) = s) ∧
    (∀ reference target after, s.resolve reference = (.ok target, after) ↔
      StandsFor h.defined h.registered reference target ∧ after = s) ∧
    (∀ reference cause after, s.resolve reference = (.error cause, after) ↔
      (∀ target, ¬ StandsFor h.defined h.registered reference target) ∧
        cause = reference.unresolved ∧ after = s) ∧
    (∀ name, s.resolve (.external ⟨Primitive.idealDomain, name⟩) =
      ((empty.resolve (.external ⟨Primitive.idealDomain, name⟩)).1, s)) ∧
    (∀ name, s.resolve (.external ⟨Primitive.physicalDomain, name⟩) =
      (.error (.physicalPrimitive name), s)) ∧
    (∀ reference space name first second,
      (s.resolve reference).1 ≠ .error (.nameConflict space name first second)) ∧
    ∀ reference name kind, (s.resolve reference).1 ≠ .error (.invalidPrimitive name kind) := by
  intro s h
  have order : s.InOrder := inOrder_empty.run calls
  have failed : ∀ reference cause, (s.resolve reference).1 = .error cause →
      cause = reference.unresolved := by
    intro reference cause failed
    have whole : s.resolve reference = (.error cause, (s.resolve reference).2) :=
      Prod.ext failed rfl
    exact (order.resolve_eq_error.mp whole).2.1
  refine ⟨order.after_resolve, ?_, ?_, ?_, ?_, ?_, ?_⟩
  · intro reference target after
    rw [order.resolve_eq_ok, standsFor_run]
  · intro reference cause after
    rw [order.resolve_eq_error]
    simp only [standsFor_run, s, h]
  · intro name
    rw [resolve_ideal, resolve_ideal]
  · intro name
    apply order.resolve_eq_error.mpr
    refine ⟨?_, rfl, rfl⟩
    intro target stands
    have resolved := order.resolve_of_standsFor stands
    cases resolved
  · intro reference space name first second clash
    exact (unresolved_cases reference).1 space name first second (failed _ _ clash).symm
  · intro reference name kind invalid
    exact (unresolved_cases reference).2 name kind (failed _ _ invalid).symm

end References

end Scope

end CircuitNetlist
