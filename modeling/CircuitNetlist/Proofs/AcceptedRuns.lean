import CircuitNetlist.Proofs.LimitedSinks
import CircuitNetlist.Proofs.ScriptRuns

/-!
# Runs that nothing refuses

Whatever its sink, a session whose call ends well has written the text of the script's lines behind
what was there before. Where the sink has no limit and its flush never fails, a session plays every
script to its end, and how the call ends is how the script ends.
-/
namespace CircuitNetlist

/-- The sink takes everything. -/
structure Sink.Unlimited (s : Sink) : Prop where
  capacity : s.capacity = none
  flushes : s.flushFails = false

/-- A write that is not refused adds the whole text. -/
theorem Sink.write_of_accepted {s : Sink} {text : String} (accepted : (s.write text).2 = none) :
    (s.write text).1 = { s with content := s.content ++ text.toUTF8 } := by
  have kept : s.fitting text.toUTF8 = text.toUTF8 := by
    have all : ¬ (s.fitting text.toUTF8).size < text.toUTF8.size := by
      intro short
      rw [write, if_pos short] at accepted
      cases accepted
    unfold fitting at all ⊢
    cases capacity : s.capacity with
    | none => rfl
    | some capacity =>
        rw [capacity] at all
        apply extract_of_size_le
        rw [ByteArray.size_extract] at all
        omega
  rw [write, kept]

/-- The line that is written, if the event is one of writing. -/
def Event.line? (e : Event) : Option Line :=
  match e.action with
  | .write line => some line
  | _ => none

namespace Session

/-- The text of some lines for a call that started at depth `base`. -/
def shown (base : Nat) (options : Options) (lines : List Line) : String :=
  String.join (lines.map fun line => (line.shift base).render options.indent)

/-- Nothing but the content of the sink depends on what has been written; the options stay. -/
structure Took (s : Session) (text : String) (after : Session) : Prop where
  sink : after.sink = { s.sink with content := s.sink.content ++ text.toUTF8 }
  options : after.options = s.options

theorem Took.of_nothing {s after : Session} (sink : after.sink = s.sink)
    (options : after.options = s.options) : s.Took "" after := by
  refine ⟨?_, options⟩
  rw [sink]
  simp

theorem Took.trans {s between after : Session} {first rest : String}
    (h : s.Took first between) (h' : between.Took rest after) : s.Took (first ++ rest) after := by
  refine ⟨?_, h'.options.trans h.options⟩
  rw [h'.sink, h.sink]
  simp [ByteArray.append_assoc]

theorem took_of_accepted {s next : Session} {base : Nat} {event : Event}
    (accepted : s.perform base event.action = (next, none)) :
    s.Took (shown base s.options event.line?.toList) next := by
  obtain ⟨rfl, taken⟩ := Prod.mk.inj accepted
  rcases event with ⟨places, action⟩
  cases action with
  | write line =>
      refine ⟨?_, rfl⟩
      have written := Sink.write_of_accepted taken
      simp [written, shown, Event.line?]
  | log record => exact Took.of_nothing rfl rfl
  | enter scope => exact Took.of_nothing rfl rfl
  | flush => exact Took.of_nothing rfl rfl

theorem shown_append (base : Nat) (options : Options) (lines more : List Line) :
    shown base options (lines ++ more) = shown base options lines ++ shown base options more := by
  simp [shown]

theorem shown_flatten (base : Nat) (options : Options) (blocks : List (List Line)) :
    shown base options blocks.flatten = String.join (blocks.map (shown base options)) := by
  induction blocks with
  | nil => rfl
  | cons block blocks ih => simp [shown_append, ih]

theorem shown_cons (base : Nat) (options : Options) (event : Event) (events : List Event) :
    shown base options ((event :: events).filterMap Event.line?)
      = shown base options event.line?.toList
        ++ shown base options (events.filterMap Event.line?) := by
  cases here : event.line? with
  | none => simp [here, shown]
  | some line => simp [here, shown]

/-- Events of which none is refused write their lines. -/
theorem took_of_played {s : Session} {base : Nat} {events : List Event}
    (accepted : (s.play base events).2 = none) :
    s.Took (shown base s.options (events.filterMap Event.line?)) (s.play base events).1 := by
  refine accepted_induction (motive := fun s events after =>
    s.Took (shown base s.options (events.filterMap Event.line?)) after) ?_ ?_ accepted
  · intro s
    exact Took.of_nothing rfl rfl
  · intro s next after event events performed rest
    have one := took_of_accepted performed
    rw [one.options] at rest
    rw [shown_cons]
    exact one.trans rest

/-- Where the sink has no limit, only a flush can be refused. -/
theorem accepted_of_unbounded {s : Session} (unbounded : s.sink.capacity = none)
    {events : List Event} (base : Nat)
    (flushes : s.sink.flushFails = true → ∀ event ∈ events, event.action ≠ .flush) :
    (s.play base events).2 = none := by
  induction events generalizing s with
  | nil => rfl
  | cons event events ih =>
      have others : s.sink.flushFails = true → ∀ event ∈ events, event.action ≠ .flush := by
        intro fails
        exact (List.forall_mem_cons.mp (flushes fails)).2
      rcases event with ⟨places, action⟩
      rw [play]
      cases action with
      | write line =>
          have written := Sink.write_of_unbounded unbounded
            ((line.shift base).render s.options.indent)
          simp only [perform, written]
          exact ih unbounded others
      | log record => exact ih unbounded others
      | enter scope => exact ih unbounded others
      | flush =>
          cases fails : s.sink.flushFails with
          | true => exact absurd rfl (flushes fails _ List.mem_cons_self)
          | false =>
              simp only [perform, Sink.flush, fails]
              exact ih unbounded others

theorem accepted_of_run {α : Type} {s : Session} {m : Script α} {a : α}
    (ok : (s.run m).1 = .ok a) : (s.play s.depth m.events).2 = none ∧ m.result = .ok a := by
  rw [run_eq_ending] at ok
  cases refused : (s.play s.depth m.events).2 with
  | some fault =>
      rw [refused] at ok
      cases ok
  | none =>
      rw [refused] at ok
      refine ⟨rfl, ?_⟩
      cases result : m.result with
      | error fault =>
          rw [result] at ok
          cases ok
      | ok a' =>
          rw [result] at ok
          exact ok

/-- A call that ends well has written the text of its script. -/
theorem content_of_run {α : Type} {s : Session} {m : Script α} {a : α}
    (ok : (s.run m).1 = .ok a) :
    (s.run m).2.sink.content
      = s.sink.content ++ (shown s.depth s.options m.lines).toUTF8 := by
  have taken := took_of_played (accepted_of_run ok).1
  rw [run_eq_ending, sink_ending, taken.sink]
  rfl

/-- A session with a sink that refuses nothing writes a script as it is. -/
theorem run_of_unlimited {α : Type} {s : Session} (h : s.sink.Unlimited) (m : Script α) :
    (s.run m).1 = m.result ∧
      (s.run m).2.sink.content
        = s.sink.content ++ (shown s.depth s.options m.lines).toUTF8 := by
  have accepted : (s.play s.depth m.events).2 = none := by
    apply accepted_of_unbounded h.capacity
    intro fails
    exact absurd (fails.symm.trans h.flushes) (by decide)
  have taken := took_of_played accepted
  rw [run_eq_ending, sink_ending, accepted, taken.sink]
  refine ⟨?_, rfl⟩
  cases m.result <;> rfl

/-- Events are performed one part after the other, up to a refusal. -/
theorem play_append (base : Nat) (s : Session) (events more : List Event) :
    s.play base (events ++ more) =
      match s.play base events with
      | (next, none) => next.play base more
      | (after, some fault) => (after, some fault) := by
  induction events generalizing s with
  | nil => rfl
  | cons event events ih =>
      rw [List.cons_append, play, play]
      cases s.perform base event.action with
      | mk next refused =>
          cases refused with
          | some fault => rfl
          | none => exact ih next

end Session

/-- A good reply is one of a session that has been opened and whose call has ended well. -/
theorem Request.run_of_reply {r : Request} {f : Format} {options : Options} {sink : Sink}
    (ok : (r.reply f options sink).result = .ok ()) :
    ∃ d, Dialect.ofFormat f = .ok d ∧
      (({ dialect := d, options, sink } : Session).run (r.script d options .empty)).1 = .ok () := by
  cases written : Dialect.ofFormat f with
  | error cause =>
      rw [reply_of_unwritten written] at ok
      cases ok
  | ok d =>
      rw [reply_of_dialect written] at ok
      exact ⟨d, rfl, ok⟩

/-- Where the sink refuses nothing, a request ends as its script does. -/
theorem Request.result_of_unlimited {f : Format} {d : Dialect} {options : Options}
    (dialect : Dialect.ofFormat f = .ok d) (r : Request) :
    (r.reply f options {}).result = (r.script d options .empty).result := by
  have unlimited : ({} : Sink).Unlimited := ⟨rfl, rfl⟩
  rw [reply_of_dialect dialect]
  exact (Session.run_of_unlimited unlimited _).1

theorem Dialect.ofFormat_format (d : Dialect) : ofFormat d.format = .ok d := by
  cases d <;> rfl

/-- Its text is that of its script, however that ends. -/
theorem Request.text_of_unlimited (d : Dialect) (options : Options) (r : Request) :
    (r.reply d.format options {}).text
      = (Session.shown 0 options (r.script d options .empty).lines).toUTF8 := by
  have unlimited : ({} : Sink).Unlimited := ⟨rfl, rfl⟩
  rw [Request.reply_of_dialect d.ofFormat_format]
  exact (Session.run_of_unlimited unlimited _).2.trans ByteArray.empty_append

end CircuitNetlist
