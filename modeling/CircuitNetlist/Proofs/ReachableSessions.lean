import CircuitNetlist.Proofs.DeckScripts
import CircuitNetlist.Proofs.Requests

/-!
# Sessions that can be met

A session can be met when it has been opened or given other options, when it has answered a request,
and also in the midst of one, where an instance of a module is written. All that happens to its
scope on the way is that calls are made, so the scope of such a session is in order.
-/
namespace CircuitNetlist

/-- Whatever is asked, calls are made of the scope and nothing else is done to it. -/
theorem Request.entered_script (d : Dialect) (options : Options) (s : Scope) (r : Request) :
    ∃ made, (r.script d options s).entered = s.trail made := by
  cases r with
  | package p =>
      obtain ⟨made, -, entered⟩ := (p.makes_script d options s).started
      exact ⟨made, entered⟩
  | definition m =>
      obtain ⟨made, -, entered⟩ := (m.makes_script d s).started
      exact ⟨made, entered⟩
  | deck input =>
      obtain ⟨made, -, entered⟩ := (input.makes_script d options s).started
      exact ⟨made, entered⟩
  | card c => exact ⟨[], c.entered_script d⟩
  | analysis a => exact ⟨[], a.entered_script d⟩

namespace Session

/-- The events that a session performs for a request. -/
def eventsOf (s : Session) (r : Request) : List Event :=
  (r.script s.dialect s.options s.scope).events

/-- The sessions that can be met: new ones, and of any that can be met the ones in the midst of a
request and behind it, and those with other options. -/
inductive Reachable : Session → Prop
  | opened {f : Format} {options : Options} {sink : Sink} {s : Session} :
      open? f options sink = .ok s → Reachable s
  | amid {s : Session} (h : Reachable s) (r : Request) (k : Nat) :
      Reachable (s.play s.depth ((s.eventsOf r).take k)).1
  | answered {s : Session} (h : Reachable s) (r : Request) : Reachable (s.answer r).2
  | configured {s : Session} (h : Reachable s) (options : Options) : Reachable { s with options }

/-- However far a request gets, its scope is one behind some of its calls. -/
theorem scope_amid (s : Session) (r : Request) (k : Nat) :
    ∃ made, (s.play s.depth ((s.eventsOf r).take k)).1.scope = s.scope.run made := by
  obtain ⟨all, entered⟩ := r.entered_script s.dialect s.options s.scope
  have within : ((s.eventsOf r).take k).filterMap Event.scope? <+: s.scope.trail all := by
    rw [← entered]
    exact (List.take_prefix k _).filterMap _
  obtain ⟨made, -, last⟩ := scope_play_of_trail s s.depth within
  exact ⟨made, last⟩

theorem scope_answered (s : Session) (r : Request) :
    ∃ made, (s.answer r).2.scope = s.scope.run made := by
  obtain ⟨made, amid⟩ := s.scope_amid r (s.eventsOf r).length
  refine ⟨made, ?_⟩
  rw [List.take_length] at amid
  rw [answer_eq_run, run_eq_ending, scope_ending]
  exact amid

theorem Reachable.inOrder {s : Session} (h : s.Reachable) : s.scope.InOrder := by
  induction h with
  | @opened f options sink s opened =>
      unfold open? at opened
      cases dialect : Dialect.ofFormat f with
      | error cause =>
          rw [dialect] at opened
          cases opened
      | ok d =>
          rw [dialect] at opened
          obtain rfl := Except.ok.inj opened
          exact Scope.inOrder_empty
  | @amid s h r k ih =>
      obtain ⟨made, same⟩ := s.scope_amid r k
      rw [same]
      exact ih.run made
  | @answered s h r ih =>
      obtain ⟨made, same⟩ := s.scope_answered r
      rw [same]
      exact ih.run made
  | configured h options ih => exact ih

end Session

end CircuitNetlist
