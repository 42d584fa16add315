import CircuitNetlist.Proofs.AcceptedRuns

/-!
# Composed replies

A script that is played behind another one finds other names, another log and other text in the
sink, but the same options; if the sink has no limit, it does there what it does in a new session.
So the reply to a sequence of scripts is composed of the replies to its parts: texts and logs are
appended up to the first part that fails.
-/
namespace CircuitNetlist

open Script

namespace Reply

/-- Nothing was asked, so nothing went wrong. -/
def nothing : Reply :=
  ⟨.ok (), .empty, []⟩

/-- What is seen of one write and then another one, if the first does not fail. -/
def andThen (first rest : Reply) : Reply :=
  match first.result with
  | .error _ => first
  | .ok _ => ⟨rest.result, first.text ++ rest.text, first.log ++ rest.log⟩

/-- What is seen of some writes, up to the first that fails. -/
def sequence (parts : List Reply) : Reply :=
  parts.foldr andThen nothing

/-- The texts one after the other. -/
def texts (parts : List Reply) : ByteArray :=
  parts.foldr (fun part rest => part.text ++ rest) .empty

theorem andThen_of_ok {first : Reply} (ok : first.result = .ok ()) (rest : Reply) :
    first.andThen rest = ⟨rest.result, first.text ++ rest.text, first.log ++ rest.log⟩ := by
  rw [andThen, ok]

theorem andThen_of_error {first : Reply} {fault : Fault} (failed : first.result = .error fault)
    (rest : Reply) : first.andThen rest = first := by
  rw [andThen, failed]

theorem sequence_of_ok {first : Reply} (ok : first.result = .ok ()) (rest : List Reply) :
    sequence (first :: rest) =
      ⟨(sequence rest).result, first.text ++ (sequence rest).text,
        first.log ++ (sequence rest).log⟩ :=
  andThen_of_ok ok _

theorem sequence_of_error {first : Reply} {fault : Fault} (failed : first.result = .error fault)
    (rest : List Reply) : sequence (first :: rest) = first :=
  andThen_of_error failed _

theorem texts_cons (part : Reply) (parts : List Reply) :
    texts (part :: parts) = part.text ++ texts parts := rfl

theorem texts_append (parts more : List Reply) :
    texts (parts ++ more) = texts parts ++ texts more := by
  induction parts with
  | nil => exact ByteArray.empty_append.symm
  | cons part parts ih =>
      rw [List.cons_append, texts_cons, texts_cons, ih, ByteArray.append_assoc]

/-- A sequence is good exactly if all of its parts are, and then all texts are there. -/
theorem sequence_eq_ok {parts : List Reply} :
    (sequence parts).result = .ok () ↔ ∀ part ∈ parts, part.result = .ok () := by
  induction parts with
  | nil => simp [sequence, nothing]
  | cons part parts ih =>
      rw [List.forall_mem_cons, ← ih]
      cases ends : part.result with
      | error fault => simp [sequence_of_error ends, ends]
      | ok u => simp [sequence_of_ok ends]

theorem text_of_sequence {parts : List Reply} (ok : (sequence parts).result = .ok ()) :
    (sequence parts).text = texts parts := by
  rw [sequence_eq_ok] at ok
  induction parts with
  | nil => rfl
  | cons part parts ih =>
      rw [List.forall_mem_cons] at ok
      rw [sequence_of_ok ok.1, texts_cons, ih ok.2]

end Reply

namespace Session

/-- One session is ahead of another by some text and some records. -/
structure Ahead (s z : Session) (text : ByteArray) (log : List LogRecord) : Prop where
  options : s.options = z.options
  unlimited : z.sink.capacity = none
  sink : s.sink = { z.sink with content := text ++ z.sink.content }
  log : s.log = log ++ z.log

/-- Both do the same. -/
theorem Ahead.perform {s z : Session} {text : ByteArray} {log : List LogRecord}
    (h : s.Ahead z text log) (base : Nat) (action : Action) :
    (s.perform base action).1.Ahead (z.perform base action).1 text log ∧
      (s.perform base action).2 = (z.perform base action).2 := by
  obtain ⟨options, unlimited, sink, logged⟩ := h
  cases action with
  | write line =>
      have here : s.sink.capacity = none := by rw [sink, unlimited]
      have mine := Sink.write_of_unbounded here ((line.shift base).render s.options.indent)
      have other := Sink.write_of_unbounded unlimited ((line.shift base).render z.options.indent)
      simp only [Session.perform, mine, other, and_true]
      refine ⟨options, unlimited, ?_, logged⟩
      rw [sink, options, ByteArray.append_assoc]
  | log record =>
      refine ⟨⟨options, unlimited, sink, ?_⟩, rfl⟩
      change s.log ++ [record] = _
      rw [logged, List.append_assoc]
      rfl
  | enter scope => exact ⟨⟨options, unlimited, sink, logged⟩, rfl⟩
  | flush =>
      refine ⟨⟨options, unlimited, sink, logged⟩, ?_⟩
      change s.sink.flush = z.sink.flush
      rw [sink]
      rfl

theorem Ahead.play {s z : Session} {text : ByteArray} {log : List LogRecord}
    (h : s.Ahead z text log) (base : Nat) (events : List Event) :
    (s.play base events).1.Ahead (z.play base events).1 text log ∧
      (s.play base events).2 = (z.play base events).2 := by
  induction events generalizing s z with
  | nil => exact ⟨h, rfl⟩
  | cons event events ih =>
      obtain ⟨next, same⟩ := h.perform base event.action
      rw [Session.play, Session.play]
      cases mine : s.perform base event.action with
      | mk after refused =>
          cases other : z.perform base event.action with
          | mk after' refused' =>
              rw [mine, other] at next same
              obtain rfl : refused = refused' := same
              cases refused with
              | some fault => exact ⟨next, rfl⟩
              | none => exact ih next

/-- Behind what an unlimited session has done well, everything is as in the session it was
before. -/
theorem ahead_of_accepted {s : Session} (unbounded : s.sink.capacity = none)
    (empty : s.sink.content = .empty) (unlogged : s.log = []) {base : Nat} {events : List Event}
    (accepted : (s.play base events).2 = none) :
    (s.play base events).1.Ahead s (s.play base events).1.sink.content
      (s.play base events).1.log := by
  have taken := took_of_played accepted
  refine ⟨taken.options, unbounded, ?_, ?_⟩
  · rw [empty, ByteArray.append_empty, taken.sink]
  · rw [unlogged, List.append_nil]

end Session

/-! ### The reply to a script -/

/-- A new session with a sink without a limit. -/
def Session.fresh (d : Dialect) (options : Options) (flushFails : Bool) : Session :=
  { dialect := d, options, sink := { flushFails } }

/-- The reply of a new session without a limit to a script. -/
def Script.reply (d : Dialect) (options : Options) (flushFails : Bool) (m : Script Unit) : Reply :=
  Session.replied ((Session.fresh d options flushFails).run m)

section Scripts
variable {d : Dialect} {options : Options} {flushFails : Bool}

theorem Request.reply_eq_script {f : Format} (dialect : Dialect.ofFormat f = .ok d) (r : Request) :
    r.reply f options { flushFails } = (r.script d options .empty).reply d options flushFails :=
  reply_of_dialect dialect r

theorem Script.reply_of_accepted {m : Script Unit} {after : Session}
    (played : (Session.fresh d options flushFails).play 0 m.events = (after, none)) :
    m.reply d options flushFails = ⟨m.result, after.sink.content, after.log⟩ := by
  rw [reply, Session.run_eq_ending]
  change Session.replied (Session.ending 0 m.result
    ((Session.fresh d options flushFails).play 0 m.events).1
    ((Session.fresh d options flushFails).play 0 m.events).2) = _
  rw [played]
  cases m.result <;> rfl

theorem Script.reply_of_refused {m : Script Unit} {after : Session} {fault : Fault}
    (played : (Session.fresh d options flushFails).play 0 m.events = (after, some fault)) :
    m.reply d options flushFails = ⟨.error fault, after.sink.content, after.log⟩ := by
  rw [reply, Session.run_eq_ending]
  change Session.replied (Session.ending 0 m.result
    ((Session.fresh d options flushFails).play 0 m.events).1
    ((Session.fresh d options flushFails).play 0 m.events).2) = _
  rw [played]
  rfl

/-- A script that ends in a fault is replied to with one. -/
theorem Script.reply_of_error {m : Script Unit} {fault : Fault} (failed : m.result = .error fault) :
    ∃ fault, (m.reply d options flushFails).result = .error fault := by
  cases played : (Session.fresh d options flushFails).play 0 m.events with
  | mk after refused =>
      cases refused with
      | some fault => exact ⟨fault, by rw [reply_of_refused played]⟩
      | none => exact ⟨fault, by rw [reply_of_accepted played, failed]⟩

/-- Behind events that have been performed, a script adds what it does in a new session. -/
theorem Script.reply_behind {events : List Event} {next : Session} (n : Script Unit)
    (played : (Session.fresh d options flushFails).play 0 events = (next, none)) :
    reply d options flushFails ⟨events ++ n.events, n.result⟩ =
      ⟨(n.reply d options flushFails).result,
        next.sink.content ++ (n.reply d options flushFails).text,
        next.log ++ (n.reply d options flushFails).log⟩ := by
  have joined := Session.play_append 0 (Session.fresh d options flushFails) events n.events
  have ahead := Session.ahead_of_accepted (s := Session.fresh d options flushFails) rfl rfl rfl
    (congrArg Prod.snd played)
  rw [played] at joined ahead
  obtain ⟨later, same⟩ := ahead.play 0 n.events
  cases mine : next.play 0 n.events with
  | mk after refused =>
      cases other : (Session.fresh d options flushFails).play 0 n.events with
      | mk after' refused' =>
          rw [mine, other] at later same
          obtain rfl : refused = refused' := same
          have text := congrArg Sink.content later.sink
          cases refused with
          | none =>
              rw [reply_of_accepted (joined.trans mine), reply_of_accepted other, text, later.log]
          | some fault =>
              rw [reply_of_refused (joined.trans mine), reply_of_refused other, text, later.log]

/-- A sequence of scripts is replied to part by part. -/
theorem Script.reply_bind {α β : Type} {m : Script α} {f : α → Script β} {rest : Reply}
    (same : ∀ a, m.result = .ok a → (f a).forget.reply d options flushFails = rest) :
    (m >>= f).forget.reply d options flushFails
      = (m.forget.reply d options flushFails).andThen rest := by
  cases result : m.result with
  | error fault =>
      have stops : (m >>= f).forget = m.forget := by
        rw [bind_of_error result, forget, forget, result]
        rfl
      have failed : m.forget.result = .error fault := by
        rw [forget, result]
        rfl
      obtain ⟨other, replied⟩ := @reply_of_error d options flushFails m.forget fault failed
      rw [stops, Reply.andThen_of_error replied]
  | ok a =>
      have ok : m.forget.result = .ok () := by
        rw [forget, result]
        rfl
      have both : (m >>= f).forget
          = ⟨m.forget.events ++ (f a).forget.events, (f a).forget.result⟩ := by
        rw [bind_of_ok result]
        rfl
      rw [both, ← same a result]
      cases played : (Session.fresh d options flushFails).play 0 m.forget.events with
      | mk next refused =>
          cases refused with
          | some fault =>
              have joined := Session.play_append 0 (Session.fresh d options flushFails)
                m.forget.events (f a).forget.events
              rw [played] at joined
              rw [reply_of_refused joined, reply_of_refused played]
              rfl
          | none =>
              rw [reply_behind _ played, reply_of_accepted played, Reply.andThen_of_ok ok]

end Scripts

end CircuitNetlist
