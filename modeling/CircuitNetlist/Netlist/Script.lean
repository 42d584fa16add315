import CircuitNetlist.Netlist.Line
import CircuitNetlist.Scope.Basic

/-!
# Scripts

A script is what a write will do, worked out before any of it is done: the lines it writes, the
records it logs, the scopes it goes through and whether it flushes, in order, and how it ends.
Each event knows the places it belongs to, so that a sink which refuses it can say where. A
script that ends in a fault still has the events before the fault.
-/
namespace CircuitNetlist

inductive LogLevel where
  | debug
  | info
  | warn
deriving DecidableEq, Repr

structure LogRecord where
  level : LogLevel
  text : String
deriving DecidableEq, Repr

inductive Action where
  | write (line : Line)
  | log (record : LogRecord)
  /-- The names known from here on. -/
  | enter (scope : Scope)
  | flush
deriving DecidableEq, Repr

/-- An action and the places it belongs to, outermost first. -/
structure Event where
  places : List Place := []
  action : Action
deriving DecidableEq, Repr

/-- A computation that records what is to be done. -/
structure Script (α : Type) where
  events : List Event
  result : Except Fault α

namespace Script

variable {α β : Type}

instance : Monad Script where
  pure a := ⟨[], .ok a⟩
  bind m f :=
    match m.result with
    | .error fault => ⟨m.events, .error fault⟩
    | .ok a => ⟨m.events ++ (f a).events, (f a).result⟩

@[simp] theorem events_pure (a : α) : (pure a : Script α).events = [] := rfl

@[simp] theorem result_pure (a : α) : (pure a : Script α).result = .ok a := rfl

/-- After a good end the rest follows. -/
theorem bind_of_ok {m : Script α} {a : α} (h : m.result = .ok a) (f : α → Script β) :
    m >>= f = ⟨m.events ++ (f a).events, (f a).result⟩ := by
  simp [bind, h]

/-- A fault keeps the events before it and ends the script. -/
theorem bind_of_error {m : Script α} {fault : Fault} (h : m.result = .error fault)
    (f : α → Script β) : m >>= f = ⟨m.events, .error fault⟩ := by
  simp [bind, h]

theorem bind_pure_self (m : Script α) : m >>= pure = m := by
  rcases m with ⟨events, _ | a⟩ <;> simp [bind, pure]

instance : LawfulMonad Script :=
  LawfulMonad.mk' Script bind_pure_self (fun a f => by simp [bind, pure])
    (fun m f g => by
      rcases h : m.result with fault | a
      · rw [bind_of_error h, bind_of_error h, bind_of_error rfl]
      · rw [bind_of_ok h, bind_of_ok h]
        rcases h' : (f a).result with fault | b
        · rw [bind_of_error h', bind_of_error rfl]
        · rw [bind_of_ok h', bind_of_ok rfl, List.append_assoc])

def act (action : Action) : Script Unit :=
  ⟨[{ action }], .ok ()⟩

/-- Ends with a fault of the given cause. -/
def fail (cause : Cause) : Script α :=
  ⟨[], .error (.plain cause)⟩

/-- A step that may fail but does nothing else. -/
def check (step : Except Cause α) : Script α :=
  match step with
  | .ok a => pure a
  | .error cause => fail cause

def write (line : Line) : Script Unit :=
  act (.write line)

def writeAll (lines : List Line) : Script Unit :=
  ⟨lines.map fun line => { action := .write line }, .ok ()⟩

def log (level : LogLevel) (text : String) : Script Unit :=
  act (.log { level, text })

def enter (scope : Scope) : Script Unit :=
  act (.enter scope)

/-- Does something with a scope. The scope that is left is entered, also where that has failed. -/
def use (step : Except Cause α × Scope) : Script (α × Scope) := do
  enter step.2
  let a ← check step.1
  return (a, step.2)

theorem use_bind (step : Except Cause α × Scope) (f : α × Scope → Script β) :
    use step >>= f = enter step.2 >>= fun _ => check step.1 >>= fun a => f (a, step.2) := by
  simp only [use, bind_assoc, pure_bind]

def flush : Script Unit :=
  act .flush

/-- The script as a part of what is written at one more place. -/
def within (place : Place) (m : Script α) : Script α where
  events := m.events.map fun event => { event with places := place :: event.places }
  result := m.result.mapError (·.within place)

end Script

end CircuitNetlist
