import CircuitNetlist.Proofs.AlikeScripts
import CircuitNetlist.Proofs.PortBindings

/-!
# Connections in any order

The connections of an instance are checked in the order in which they are given and written in the
order of the target's ports. Which fault is met first depends on the given order; that there is one
does not, nor what is bound where there is none, and all faults of connections are of one kind.
-/
namespace CircuitNetlist

/-- Whatever goes wrong in the step is of one kind. -/
def FailsAs {α : Type} (kind : FaultKind) (step : Except Cause α) : Prop :=
  ∀ cause, step = .error cause → cause.kind = kind

namespace FailsAs
variable {α β : Type} {kind : FaultKind}

theorem pure (a : α) : FailsAs kind (pure a : Except Cause α) :=
  FailsWith.pure a

theorem throw {cause : Cause} (h : cause.kind = kind) :
    FailsAs kind (throw cause : Except Cause α) :=
  FailsWith.throw h

theorem ite {c : Prop} [Decidable c] {step step' : Except Cause α} (h : FailsAs kind step)
    (h' : FailsAs kind step') : FailsAs kind (if c then step else step') :=
  FailsWith.ite h h'

theorem bind {step : Except Cause α} {next : α → Except Cause β} (h : FailsAs kind step)
    (rest : ∀ a, FailsAs kind (next a)) : FailsAs kind (step >>= next) :=
  FailsWith.bind h rest

theorem map {f : α → β} {step : Except Cause α} (h : FailsAs kind step) :
    FailsAs kind (step.map f) :=
  FailsWith.map h

theorem foldlM {σ : Type} {step : σ → α → Except Cause σ} (one : ∀ s x, FailsAs kind (step s x))
    (xs : List α) (s : σ) : FailsAs kind (xs.foldlM step s) :=
  FailsWith.foldlM one xs s

theorem mapM {step : α → Except Cause β} (one : ∀ x, FailsAs kind (step x)) (xs : List α) :
    FailsAs kind (xs.mapM step) :=
  FailsWith.mapM one xs

end FailsAs

/-! ### Faults of connections -/

theorem SignalTable.failsAs_get (t : SignalTable) (name : String) :
    FailsAs .structural (t.get name) := by
  unfold get
  cases find? t.signals name with
  | some s => exact .pure s
  | none => exact .throw rfl

theorem SignalTable.failsAs_checkSlice (t : SignalTable) (s : Slice) :
    FailsAs .structural (t.checkSlice s) := by
  apply (t.failsAs_get s.signal).bind
  intro signal
  have bounded : FailsAs .structural
      (if signal.width ≤ s.top then throw (.sliceOutOfRange s signal.width) else pure ()) := by
    by_cases outside : signal.width ≤ s.top
    · rw [if_pos outside]
      exact .throw rfl
    · rw [if_neg outside]
      exact .pure ()
  by_cases empty : s.top < s.bottom
  · rw [if_pos empty]
    apply FailsAs.bind (.throw rfl)
    intro _
    exact bounded
  · rw [if_neg empty]
    exact bounded

namespace Target
variable (d : Dialect) (t : SignalTable)

mutual

theorem failsAs_textIn : ∀ target : Target, FailsAs .structural (target.textIn d t)
  | .signal name => by
      rw [textIn]
      apply (t.failsAs_get name).bind
      intro s
      exact .pure _
  | .slice range => by
      rw [textIn]
      apply (t.failsAs_checkSlice range).bind
      intro _
      exact .pure _
  | .concat [] => by
      rw [textIn]
      exact .throw rfl
  | .concat (part :: parts) => by
      rw [textIn]
      apply (failsAs_textIn part).bind
      intro first
      apply (failsAs_textsIn parts).bind
      intro others
      exact .pure _

theorem failsAs_textsIn : ∀ parts : List Target, FailsAs .structural (textsIn d t parts)
  | [] => by
      rw [textsIn]
      exact .pure _
  | part :: parts => by
      rw [textsIn]
      apply (failsAs_textIn part).bind
      intro text
      apply (failsAs_textsIn parts).bind
      intro texts
      exact .pure _

end

end Target

section Binding
variable {d : Dialect} {t : SignalTable} {target target' : Resolved}
  {connections connections' : List Connection}

theorem failsAs_bindPorts :
    FailsAs .structural (bindPorts d t target connections) := by
  unfold bindPorts
  apply FailsAs.bind
  · apply FailsAs.foldlM
    intro before c
    unfold addConnection
    cases target.ports.any (·.signal == c.port) with
    | false => exact .throw rfl
    | true =>
        cases before.any (·.port == c.port) with
        | true => exact .throw rfl
        | false => exact .pure _
  · intro accepted
    apply FailsAs.mapM
    intro p
    unfold bindPort
    cases accepted.find? (·.port == p.signal) with
    | none => exact .throw rfl
    | some c =>
        apply (Target.failsAs_textIn d t c.target).bind
        intro text
        exact .pure _

/-! ### Other orders -/

theorem bindPort_of_perm (same : connections.Perm connections')
    (once : (connections.map (·.port)).Nodup) (p : Port) :
    bindPort d t connections p = bindPort d t connections' p := by
  unfold bindPort
  rw [find?_of_perm same once]

theorem Binds.of_perm {bindings : List PortBinding} (h : Binds d t target connections bindings)
    (same : connections.Perm connections') (ports : target.ports = target'.ports) :
    Binds d t target' connections' bindings := by
  refine ⟨?_, ?_, ?_⟩
  · intro c mem
    rw [← ports]
    exact h.known c (same.mem_iff.mpr mem)
  · exact (same.map (·.port)).nodup_iff.mp h.once
  · rw [← ports]
    apply h.bound.imp
    intro p b bound
    rw [← bindPort_of_perm same h.once]
    exact bound

/-- Connections in another order bind the same, or fail as well. -/
theorem bindPorts_alike (same : connections.Perm connections')
    (ports : target.ports = target'.ports) :
    EndsAlike Cause.SameKind Eq (bindPorts d t target connections)
      (bindPorts d t target' connections') := by
  apply EndsAlike.of_eq_ok_iff
  · intro bindings
    rw [bindPorts_eq_ok, bindPorts_eq_ok]
    constructor
    · intro h
      exact h.of_perm same ports
    · intro h
      exact h.of_perm same.symm ports.symm
  · intro cause cause' failed failed'
    have kind := failsAs_bindPorts cause failed
    have kind' := failsAs_bindPorts cause' failed'
    exact kind.trans kind'.symm

end Binding

end CircuitNetlist
