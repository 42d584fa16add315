import CircuitNetlist.Session.Basic

/-!
# Requests to a session

A session is asked to write packages, single modules, decks, control cards and analyses. Whatever
it is asked, it plays one script and does nothing else. A reply is all that can be seen of one
request to a new session: how it ends, what is in the sink then and what has been logged.
-/
namespace CircuitNetlist

/-- What a session can be asked to write. -/
inductive Request where
  | package (p : Package)
  | definition (m : Module)
  | deck (input : SimulationInput)
  | card (c : Control)
  | analysis (a : Analysis)
deriving Repr

/-- The script without its value. -/
def Script.forget {α : Type} (m : Script α) : Script Unit :=
  ⟨m.events, m.result.map fun _ => ()⟩

theorem Script.result_of_forget {α : Type} {m : Script α} (h : m.forget.result = .ok ()) :
    ∃ a, m.result = .ok a := by
  unfold forget at h
  cases result : m.result with
  | error fault =>
      rw [result] at h
      cases h
  | ok a => exact ⟨a, rfl⟩

/-- The script of a request, for a session with the given names. -/
def Request.script (d : Dialect) (options : Options) (scope : Scope) : Request → Script Unit
  | .package p => (p.script d options scope).forget
  | .definition m => (m.script d scope).forget
  | .deck input => (input.script d options scope).forget
  | .card c => c.script d
  | .analysis a => a.script d

namespace Session

/-- How a call ended and the session behind it, without the value of the call. -/
def settled {α : Type} (call : Except Fault α × Session) : Except Fault Unit × Session :=
  (call.1.map fun _ => (), call.2)

def answer (s : Session) : Request → Except Fault Unit × Session
  | .package p => settled (s.writePackage p)
  | .definition m => settled (s.writeModule m)
  | .deck input => settled (s.writeSimulation input)
  | .card c => s.writeControl c
  | .analysis a => s.writeAnalysis a

/-- A run that is refused has done all events before the refused one and none behind it. -/
theorem play_eq_refused {s after : Session} {base : Nat} {events : List Event} {fault : Fault}
    (h : s.play base events = (after, some fault)) :
    ∃ done last rest refusal, events = done ++ last :: rest ∧ (s.play base done).2 = none ∧
      (s.play base done).1.perform base last.action = (after, some refusal) ∧
      fault = .ofPlaces last.places (.output refusal) := by
  induction events generalizing s with
  | nil => cases h
  | cons event events ih =>
      rw [play] at h
      cases performed : s.perform base event.action with
      | mk next refused =>
          rw [performed] at h
          cases refused with
          | some refusal =>
              obtain ⟨rfl, same⟩ := Prod.mk.inj h
              exact ⟨[], event, events, refusal, rfl, rfl, performed, (Option.some.inj same).symm⟩
          | none =>
              obtain ⟨done, last, rest, refusal, rfl, accepted, stopped, same⟩ := ih h
              refine ⟨event :: done, last, rest, refusal, rfl, ?_, ?_, same⟩
              · rw [play, performed]
                exact accepted
              · rw [play, performed]
                exact stopped

/-- What holds of no events, and stays true with one more in front that is not refused, holds of a
run in which none is refused. -/
theorem accepted_induction {motive : Session → List Event → Session → Prop} {base : Nat}
    (nil : ∀ s, motive s [] s)
    (cons : ∀ s next after event events, s.perform base event.action = (next, none) →
      motive next events after → motive s (event :: events) after)
    {s : Session} {events : List Event} (accepted : (s.play base events).2 = none) :
    motive s events (s.play base events).1 := by
  induction events generalizing s with
  | nil => exact nil s
  | cons event events ih =>
      rw [play] at accepted ⊢
      cases performed : s.perform base event.action with
      | mk next refused =>
          rw [performed] at accepted
          cases refused with
          | some refusal => cases accepted
          | none => exact cons s next _ event events performed (ih accepted)

/-- What a sink refuses is a fault of output. -/
theorem kind_of_refused {s after : Session} {base : Nat} {events : List Event} {fault : Fault}
    (h : s.play base events = (after, some fault)) : fault.kind = .output := by
  obtain ⟨done, last, rest, refusal, -, -, -, rfl⟩ := play_eq_refused h
  exact Fault.kind_ofPlaces last.places (.output refusal)

/-- How a script ends after its events have been played. -/
def ending {α : Type} (depth : Nat) (result : Except Fault α) (after : Session) :
    Option Fault → Except Fault α × Session
  | some fault => (.error fault, after)
  | none =>
    match result with
    | .error fault => (.error fault, after)
    | .ok a => (.ok a, { after with depth })

theorem run_eq_ending {α : Type} (s : Session) (m : Script α) :
    s.run m = ending s.depth m.result (s.play s.depth m.events).1 (s.play s.depth m.events).2 := by
  unfold run ending
  cases s.play s.depth m.events with
  | mk after refused => cases refused <;> cases m.result <;> rfl

section Ending
variable {α : Type} (depth : Nat) (result : Except Fault α) (after : Session)
  (refused : Option Fault)

/-- The end of a script changes nothing but the depth. -/
theorem ending_eq : (ending depth result after refused).2 =
    { after with depth := (ending depth result after refused).2.depth } := by
  cases refused <;> cases result <;> rfl

@[simp] theorem sink_ending : (ending depth result after refused).2.sink = after.sink := by
  rw [ending_eq]

@[simp] theorem log_ending : (ending depth result after refused).2.log = after.log := by
  rw [ending_eq]

@[simp] theorem scope_ending : (ending depth result after refused).2.scope = after.scope := by
  rw [ending_eq]

end Ending

theorem run_forget {α : Type} (s : Session) (m : Script α) :
    settled (s.run m) = s.run m.forget := by
  unfold run Script.forget
  cases s.play s.depth m.events with
  | mk after refused =>
      cases refused with
      | some fault => rfl
      | none => cases m.result <;> rfl

/-- A session answers by playing the script of the request. -/
theorem answer_eq_run (s : Session) (r : Request) :
    s.answer r = s.run (r.script s.dialect s.options s.scope) := by
  cases r with
  | package p => exact run_forget s _
  | definition m => exact run_forget s _
  | deck input => exact run_forget s _
  | card c => rfl
  | analysis a => rfl

end Session

/-- What is seen of a write: how it ends, the text and the log. -/
structure Reply where
  result : Except Fault Unit
  text : ByteArray
  log : List LogRecord

/-- What is seen of a call. -/
def Session.replied (call : Except Fault Unit × Session) : Reply :=
  ⟨call.1, call.2.sink.content, call.2.log⟩

namespace Request

/-- The reply of a new session with the given sink. -/
def reply (r : Request) (f : Format) (options : Options) (sink : Sink) : Reply :=
  match Session.open? f options sink with
  | .error fault => ⟨.error fault, sink.content, []⟩
  | .ok session => Session.replied (session.answer r)

variable {f : Format} {options : Options} {sink : Sink}

theorem reply_of_dialect {d : Dialect} (h : Dialect.ofFormat f = .ok d) (r : Request) :
    r.reply f options sink =
      Session.replied (({ dialect := d, options, sink } : Session).run
        (r.script d options .empty)) := by
  unfold reply Session.open?
  rw [h, ← Session.answer_eq_run]

/-- A format without a writer is refused before anything is done. -/
theorem reply_of_unwritten {cause : Cause} (h : Dialect.ofFormat f = .error cause)
    (r : Request) : r.reply f options sink = ⟨.error (.plain cause), sink.content, []⟩ := by
  unfold reply Session.open?
  rw [h]

end Request

end CircuitNetlist
