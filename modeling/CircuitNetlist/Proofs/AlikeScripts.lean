import CircuitNetlist.Proofs.Scopes
import CircuitNetlist.Proofs.ScriptRuns

/-!
# Scripts that write alike

Two scripts write alike if they write the same lines and end alike: both well, with related values,
or both in faults of one kind that are met in the same places. Nothing is said of what they log and
of the scopes they enter. The relation goes through sequences and through runs over two lists whose
elements are related place by place.
-/
namespace CircuitNetlist

/-- Both end well with related values, or both in related errors. -/
inductive EndsAlike {ε α β : Type} (E : ε → ε → Prop) (R : α → β → Prop) :
    Except ε α → Except ε β → Prop
  | ok {a : α} {b : β} : R a b → EndsAlike E R (.ok a) (.ok b)
  | error {e e' : ε} : E e e' → EndsAlike E R (.error e) (.error e')

def Cause.SameKind (c c' : Cause) : Prop :=
  c.kind = c'.kind

/-- Faults of one kind, met in the same places. -/
structure Fault.Alike (f g : Fault) : Prop where
  places : f.places = g.places
  kind : f.kind = g.kind

namespace EndsAlike
variable {ε α β : Type} {E : ε → ε → Prop} {R : α → β → Prop}

theorem refl (errors : ∀ e, E e e) (x : Except ε α) : EndsAlike E Eq x x := by
  cases x with
  | error e => exact .error (errors e)
  | ok a => exact .ok rfl

/-- Steps that agree on what is good, and of which neither fails in a way of its own. -/
theorem of_eq_ok_iff {x y : Except ε α} (good : ∀ a, x = .ok a ↔ y = .ok a)
    (bad : ∀ e e', x = .error e → y = .error e' → E e e') : EndsAlike E Eq x y := by
  cases x with
  | ok a =>
      rw [(good a).mp rfl]
      exact .ok rfl
  | error e =>
      cases y with
      | error e' => exact .error (bad e e' rfl rfl)
      | ok a => cases (good a).mpr rfl

/-- What is related may be looked at together with where it comes from. -/
theorem of_ok {S : α → β → Prop} {x : Except ε α} {y : Except ε β} (h : EndsAlike E R x y)
    (more : ∀ a b, x = .ok a → y = .ok b → R a b → S a b) : EndsAlike E S x y := by
  cases h with
  | ok related => exact .ok (more _ _ rfl rfl related)
  | error related => exact .error related

theorem mapError {f : ε → ε} {x : Except ε α} {y : Except ε β} (h : EndsAlike E R x y)
    (keeps : ∀ e e', E e e' → E (f e) (f e')) : EndsAlike E R (x.mapError f) (y.mapError f) := by
  cases h with
  | ok related => exact .ok related
  | error related => exact .error (keeps _ _ related)

/-- Two uses of scopes either fail both or succeed both, whatever scopes they leave. -/
theorem cases_outcome {C : Cause → Cause → Prop} {step : Except Cause α × Scope}
    {step' : Except Cause β × Scope} {R : α × Scope → β × Scope → Prop}
    (h : EndsAlike C R (Scope.outcome step) (Scope.outcome step')) :
    (∃ c c' after after', step = (.error c, after) ∧ step' = (.error c', after') ∧ C c c') ∨
      ∃ a b after after', step = (.ok a, after) ∧ step' = (.ok b, after') ∧
        R (a, after) (b, after') := by
  obtain ⟨outcome, after⟩ := step
  obtain ⟨outcome', after'⟩ := step'
  cases outcome with
  | error c =>
      cases outcome' with
      | error c' =>
          cases h with
          | error same => exact .inl ⟨c, c', after, after', rfl, rfl, same⟩
      | ok b => cases h
  | ok a =>
      cases outcome' with
      | error c' => cases h
      | ok b =>
          cases h with
          | ok related => exact .inr ⟨a, b, after, after', rfl, rfl, related⟩

end EndsAlike

/-- Relations of causes and of faults that belong together: related causes make related faults, and
these stay related within one more place. -/
structure Fault.Compatible (C : Cause → Cause → Prop) (E : Fault → Fault → Prop) : Prop where
  refl : ∀ f, E f f
  cause : ∀ c c', C c c' → E (.plain c) (.plain c')
  within : ∀ place f g, E f g → E (f.within place) (g.within place)

theorem Fault.compatible_eq : Fault.Compatible Eq Eq :=
  ⟨fun _ => rfl, fun _ _ same => same ▸ rfl, fun _ _ _ same => same ▸ rfl⟩

theorem Fault.compatible_alike : Fault.Compatible Cause.SameKind Fault.Alike :=
  ⟨fun _ => ⟨rfl, rfl⟩, fun _ _ same => ⟨rfl, same⟩,
    fun place _ _ related => ⟨congrArg (place :: ·) related.places, related.kind⟩⟩

namespace Script
variable {α β γ δ : Type} {R : α → β → Prop} {S : γ → δ → Prop}

/-- The same lines, and ends that are related. -/
structure Related (E : Fault → Fault → Prop) (R : α → β → Prop) (m : Script α) (n : Script β) :
    Prop where
  lines : m.lines = n.lines
  ends : EndsAlike E R m.result n.result

namespace Related
variable {C : Cause → Cause → Prop} {E : Fault → Fault → Prop}

theorem pure {a : α} {b : β} (related : R a b) : (pure a : Script α).Related E R (pure b) :=
  ⟨rfl, .ok related⟩

theorem bind {m : Script α} {n : Script β} {f : α → Script γ} {g : β → Script δ}
    (h : m.Related E R n) (rest : ∀ a b, R a b → (f a).Related E S (g b)) :
    (m >>= f).Related E S (n >>= g) := by
  rcases m with ⟨events, result⟩
  rcases n with ⟨events', result'⟩
  obtain ⟨lines, ends⟩ := h
  cases ends with
  | @ok a b related =>
      have others := rest a b related
      refine ⟨?_, others.ends⟩
      rw [lines_bind_of_ok rfl, lines_bind_of_ok rfl, lines, others.lines]
  | error related => exact ⟨lines, .error related⟩

/-- Scopes may be entered that differ, and records logged. -/
theorem act_bind {action action' : Action} (silent : ∀ line, action ≠ .write line)
    (silent' : ∀ line, action' ≠ .write line) {m : Script γ} {n : Script δ}
    (h : m.Related E S n) :
    (act action >>= fun _ => m).Related E S (act action' >>= fun _ => n) := by
  have none : ∀ a : Action, (∀ line, a ≠ .write line) → (act a).lines = [] := by
    intro a silent
    cases a with
    | write line => exact absurd rfl (silent line)
    | log record => rfl
    | enter scope => rfl
    | flush => rfl
  have same : (act action).Related E Eq (act action') := by
    refine ⟨?_, .ok rfl⟩
    rw [none action silent, none action' silent']
  apply same.bind
  intro _ _ _
  exact h

/-- Runs over related lists, from related states on. -/
theorem foldlM {κ κ' : Type} {Q : κ → κ' → Prop} {step : α → κ → Script α}
    {step' : β → κ' → Script β}
    (one : ∀ a b x y, R a b → Q x y → (step a x).Related E R (step' b y))
    {xs : List κ} {ys : List κ'} (related : List.Forall₂ Q xs ys) {a : α} {b : β} (start : R a b) :
    (xs.foldlM step a).Related E R (ys.foldlM step' b) := by
  induction related generalizing a b with
  | nil => exact pure start
  | cons here _ ih =>
      rw [List.foldlM_cons, List.foldlM_cons]
      apply (one _ _ _ _ start here).bind
      intro a' b' next
      exact ih next

variable (faults : Fault.Compatible C E)
include faults

theorem refl (m : Script α) : m.Related E Eq m :=
  ⟨rfl, EndsAlike.refl faults.refl m.result⟩

/-- The same script in front of both. -/
theorem bind_same (m : Script α) {f : α → Script γ} {g : α → Script δ}
    (rest : ∀ a, (f a).Related E S (g a)) : (m >>= f).Related E S (m >>= g) := by
  apply (refl faults m).bind
  intro a b same
  exact same ▸ rest a

theorem check {step : Except Cause α} {step' : Except Cause β} (h : EndsAlike C R step step') :
    (check step).Related E R (check step') := by
  cases h with
  | ok related => exact pure related
  | error same => exact ⟨rfl, .error (faults.cause _ _ same)⟩

theorem use {step : Except Cause α × Scope} {step' : Except Cause β × Scope}
    {R : α × Scope → β × Scope → Prop}
    (h : EndsAlike C R (Scope.outcome step) (Scope.outcome step')) :
    (use step).Related E R (use step') := by
  obtain ⟨c, c', after, after', rfl, rfl, same⟩ | ⟨a, b, after, after', rfl, rfl, related⟩ :=
    h.cases_outcome
  · apply act_bind (by simp) (by simp)
    exact ⟨rfl, .error (faults.cause _ _ same)⟩
  · apply act_bind (by simp) (by simp)
    exact pure related

theorem within {m : Script α} {n : Script β} (h : m.Related E R n) (place : Place) :
    (m.within place).Related E R (n.within place) := by
  refine ⟨?_, h.ends.mapError (faults.within place)⟩
  rw [lines_within, lines_within, h.lines]

end Related

/-- The same lines, and ends that are alike. -/
structure Alike (R : α → β → Prop) (m : Script α) (n : Script β) : Prop where
  lines : m.lines = n.lines
  ends : EndsAlike Fault.Alike R m.result n.result

namespace Alike

theorem related {m : Script α} {n : Script β} (h : m.Alike R n) : m.Related Fault.Alike R n :=
  ⟨h.lines, h.ends⟩

theorem of_related {m : Script α} {n : Script β} (h : m.Related Fault.Alike R n) : m.Alike R n :=
  ⟨h.lines, h.ends⟩

theorem pure {a : α} {b : β} (same : R a b) : (pure a : Script α).Alike R (pure b) :=
  of_related (.pure same)

theorem bind {m : Script α} {n : Script β} {f : α → Script γ} {g : β → Script δ}
    (h : m.Alike R n) (rest : ∀ a b, R a b → (f a).Alike S (g b)) :
    (m >>= f).Alike S (n >>= g) :=
  of_related (h.related.bind fun a b same => (rest a b same).related)

/-- The same script in front of both. -/
theorem bind_same (m : Script α) {f : α → Script γ} {g : α → Script δ}
    (rest : ∀ a, (f a).Alike S (g a)) : (m >>= f).Alike S (m >>= g) :=
  of_related (.bind_same Fault.compatible_alike m fun a => (rest a).related)

/-- Scopes may be entered that differ, and records logged. -/
theorem act_bind {action action' : Action} (silent : ∀ line, action ≠ .write line)
    (silent' : ∀ line, action' ≠ .write line) {m : Script γ} {n : Script δ} (h : m.Alike S n) :
    (act action >>= fun _ => m).Alike S (act action' >>= fun _ => n) :=
  of_related (h.related.act_bind silent silent')

theorem check {step : Except Cause α} {step' : Except Cause β}
    (h : EndsAlike Cause.SameKind R step step') : (check step).Alike R (check step') :=
  of_related (.check Fault.compatible_alike h)

theorem use {step : Except Cause α × Scope} {step' : Except Cause β × Scope}
    {R : α × Scope → β × Scope → Prop}
    (h : EndsAlike Cause.SameKind R (Scope.outcome step) (Scope.outcome step')) :
    (use step).Alike R (use step') :=
  of_related (.use Fault.compatible_alike h)

theorem within {m : Script α} {n : Script β} (h : m.Alike R n) (place : Place) :
    (m.within place).Alike R (n.within place) :=
  of_related (.within Fault.compatible_alike h.related place)

/-- Runs over related lists, from related states on. -/
theorem foldlM {κ κ' : Type} {Q : κ → κ' → Prop} {step : α → κ → Script α}
    {step' : β → κ' → Script β}
    (one : ∀ a b x y, R a b → Q x y → (step a x).Alike R (step' b y))
    {xs : List κ} {ys : List κ'} (same : List.Forall₂ Q xs ys) {a : α} {b : β} (start : R a b) :
    (xs.foldlM step a).Alike R (ys.foldlM step' b) :=
  of_related (.foldlM (fun a b x y first next => (one a b x y first next).related) same start)

end Alike

end Script

end CircuitNetlist
