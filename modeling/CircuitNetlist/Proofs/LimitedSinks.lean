import CircuitNetlist.Proofs.Requests

/-!
# Sinks with a limit

A sink with room for some more bytes sees the same events as one without a limit, up to the write
that no longer fits. So what it gets is the text of the unlimited run, cut behind the last byte that
fits: nothing is lost in front of the cut, the write that is cut is reported, and no event behind it
is performed.
-/
namespace CircuitNetlist

/-- The record that is logged, if the event is one of logging. -/
def Event.record? (e : Event) : Option LogRecord :=
  match e.action with
  | .log record => some record
  | _ => none

/-- The bytes up to a place behind their end are all of them. -/
theorem extract_of_size_le {bytes : ByteArray} {room : Nat} (fits : bytes.size ≤ room) :
    bytes.extract 0 room = bytes := by
  rw [← Nat.max_eq_left fits, ByteArray.extract_zero_max_size]

theorem extract_min_size (bytes : ByteArray) (room : Nat) :
    bytes.extract 0 room = bytes.extract 0 (min room bytes.size) := by
  rcases Nat.le_total room bytes.size with short | fits
  · rw [Nat.min_eq_left short]
  · rw [Nat.min_eq_right fits, extract_of_size_le fits, extract_of_size_le (Nat.le_refl _)]

theorem Sink.fitting_empty (s : Sink) : s.fitting .empty = .empty := by
  unfold fitting
  cases s.capacity with
  | none => rfl
  | some capacity => exact extract_of_size_le (Nat.zero_le _)

/-- The sink with room for so many more bytes. -/
def Sink.limited (s : Sink) (room : Nat) : Sink :=
  { s with capacity := some (s.content.size + room) }

/-- What fits into the room is kept; if that is not all, the write is refused. -/
theorem Sink.write_limited (s : Sink) (room : Nat) (text : String) :
    (s.limited room).write text =
      ({ s.limited room with content := s.content ++ text.toUTF8.extract 0 room },
        if room < text.toUTF8.size then some .sinkFull else none) := by
  have space : s.content.size + room - s.content.size = room := by omega
  have short : min room text.toUTF8.size < text.toUTF8.size ↔ room < text.toUTF8.size := by omega
  simp only [write, fitting, limited, space, ByteArray.size_extract, Nat.sub_zero, short]

/-- A text that fits is added as without a limit, and takes its bytes off the room. -/
theorem Sink.write_limited_of_fits {s : Sink} {room : Nat} {text : String}
    (fits : text.toUTF8.size ≤ room) :
    (s.limited room).write text =
      ({ s with content := s.content ++ text.toUTF8 }.limited (room - text.toUTF8.size), none) := by
  have left : s.content.size + room
      = (s.content ++ text.toUTF8).size + (room - text.toUTF8.size) := by
    rw [ByteArray.size_append]
    omega
  rw [write_limited, extract_of_size_le fits, if_neg (Nat.not_lt.mpr fits)]
  simp only [limited, left]

theorem Sink.write_of_unbounded {s : Sink} (unbounded : s.capacity = none) (text : String) :
    s.write text = ({ s with content := s.content ++ text.toUTF8 }, none) := by
  simp only [write, fitting, unbounded, Nat.lt_irrefl, ↓reduceIte]

namespace Session

/-- The session with room for so many more bytes in its sink. -/
def limited (s : Session) (room : Nat) : Session :=
  { s with sink := s.sink.limited room }

/-- Nothing but more bytes is in the sink, and nothing is gone from the log. -/
structure Grows (s : Session) (more : ByteArray) (after : Session) : Prop where
  sink : after.sink = { s.sink with content := s.sink.content ++ more }
  log : s.log <+: after.log

theorem Grows.refl (s : Session) : s.Grows .empty s := by
  refine ⟨?_, List.prefix_refl _⟩
  rw [ByteArray.append_empty]

theorem Grows.trans {s between after : Session} {first rest : ByteArray}
    (h : s.Grows first between) (h' : between.Grows rest after) :
    s.Grows (first ++ rest) after := by
  refine ⟨?_, h.log.trans h'.log⟩
  rw [h'.sink, h.sink, ByteArray.append_assoc]

/-- The bytes of one action of a call that started at depth `base`. -/
def bytes (base : Nat) (options : Options) : Action → ByteArray
  | .write line => ((line.shift base).render options.indent).toUTF8
  | _ => .empty

/-! ### One action -/

section Action
variable {s : Session} {base room : Nat} {action : Action}

theorem grows_perform (unbounded : s.sink.capacity = none) :
    s.Grows (bytes base s.options action) (s.perform base action).1 := by
  cases action with
  | write line =>
      refine ⟨?_, List.prefix_refl _⟩
      simp only [perform, Sink.write_of_unbounded unbounded, bytes]
  | log record => exact ⟨(Grows.refl s).sink, List.prefix_append _ _⟩
  | enter scope => exact ⟨(Grows.refl s).sink, List.prefix_refl _⟩
  | flush => exact Grows.refl s

theorem grown_perform (base : Nat) (s : Session) (action : Action) :
    ∃ more, s.Grows more (s.perform base action).1 := by
  cases action with
  | write line => exact ⟨_, rfl, List.prefix_refl _⟩
  | log record => exact ⟨.empty, (Grows.refl s).sink, List.prefix_append _ _⟩
  | enter scope => exact ⟨.empty, (Grows.refl s).sink, List.prefix_refl _⟩
  | flush => exact ⟨.empty, Grows.refl s⟩

/-- An action that fits does what it does without a limit. -/
theorem perform_limited_of_fits (unbounded : s.sink.capacity = none)
    (fits : (bytes base s.options action).size ≤ room) :
    (s.limited room).perform base action =
      ((s.perform base action).1.limited (room - (bytes base s.options action).size),
        (s.perform base action).2) := by
  cases action with
  | write line =>
      have written := Sink.write_limited_of_fits (s := s.sink) fits
      simp only [perform, limited, written, Sink.write_of_unbounded unbounded, bytes]
  | log record => rfl
  | enter scope => rfl
  | flush => rfl

/-- An action that does not fit is a write. The part that fits is kept and the write is refused,
which without a limit it would not be. -/
theorem perform_limited_of_full (unbounded : s.sink.capacity = none)
    (full : room < (bytes base s.options action).size) :
    (s.perform base action).2 = none ∧
      ((s.limited room).perform base action).2 = some .sinkFull ∧
      ((s.limited room).perform base action).1.sink.content
        = s.sink.content ++ (bytes base s.options action).extract 0 room ∧
      ((s.limited room).perform base action).1.log = s.log := by
  cases action with
  | write line =>
      change room < ((line.shift base).render s.options.indent).toUTF8.size at full
      simp only [perform, limited, Sink.write_of_unbounded unbounded, Sink.write_limited,
        if_pos full, bytes, and_self]
  | log record => exact absurd full (Nat.not_lt_zero room)
  | enter scope => exact absurd full (Nat.not_lt_zero room)
  | flush => exact absurd full (Nat.not_lt_zero room)

end Action

/-! ### Whole runs -/

/-- Whatever the sink, a session only grows. -/
theorem grows_play (base : Nat) (s : Session) (events : List Event) :
    ∃ more, s.Grows more (s.play base events).1 := by
  induction events generalizing s with
  | nil => exact ⟨.empty, Grows.refl s⟩
  | cons event events ih =>
      obtain ⟨first, one⟩ := grown_perform base s event.action
      rw [play]
      cases performed : s.perform base event.action with
      | mk next refused =>
          rw [performed] at one
          cases refused with
          | some fault => exact ⟨first, one⟩
          | none =>
              obtain ⟨more, rest⟩ := ih next
              exact ⟨first ++ more, one.trans rest⟩

/-- How something done with room for some bytes, which is answered by `part`, compares with the same
done without a limit, which is answered by `whole` and writes `text`. -/
structure Cut {α : Type} (full : α → Session → Prop) (s : Session) (room : Nat) (text : ByteArray)
    (whole : α) (after : Session) (part : α) (cut : Session) : Prop where
  grows : s.Grows text after
  content : cut.sink.content = s.sink.content ++ text.extract 0 room
  of_fits : text.size ≤ room → part = whole ∧ cut = after.limited (room - text.size)
  of_full : room < text.size → full part cut ∧ cut.log <+: after.log

/-- Where nothing is written, the limit does not matter. -/
theorem Cut.refl {α : Type} (full : α → Session → Prop) (s : Session) (room : Nat) (answer : α) :
    Cut full s room .empty answer s answer (s.limited room) := by
  refine ⟨Grows.refl s, ?_, ?_, ?_⟩
  · rw [extract_of_size_le (Nat.zero_le room), ByteArray.append_empty]
    rfl
  · intro _
    exact ⟨rfl, rfl⟩
  · intro short
    exact absurd short (Nat.not_lt_zero room)

/-- What is done before, and fits, is in front of both. -/
theorem Cut.prepend {α : Type} {full : α → Session → Prop} {s next after cut : Session} {room : Nat}
    {first text : ByteArray} {whole part : α} (grown : s.Grows first next)
    (fits : first.size ≤ room)
    (h : Cut full next (room - first.size) text whole after part cut) :
    Cut full s room (first ++ text) whole after part cut := by
  have size : (first ++ text).size = first.size + text.size := ByteArray.size_append
  refine ⟨grown.trans h.grows, ?_, ?_, ?_⟩
  · have front : (first ++ text).extract 0 room = first ++ text.extract 0 (room - first.size) := by
      rw [ByteArray.extract_append, extract_of_size_le fits, Nat.zero_sub]
    rw [h.content, grown.sink, front, ByteArray.append_assoc]
  · intro all
    have left : room - (first ++ text).size = room - first.size - text.size := by omega
    rw [left]
    exact h.of_fits (by omega)
  · intro short
    exact h.of_full (by omega)

/-- What does not fit is cut, and nothing behind it is done; without a limit the rest follows. -/
theorem Cut.overrun {α : Type} {full : α → Session → Prop} {s next after cut : Session} {room : Nat}
    {first rest : ByteArray} {whole part : α} (grown : s.Grows first next)
    (later : next.Grows rest after) (short : room < first.size) (refused : full part cut)
    (content : cut.sink.content = s.sink.content ++ first.extract 0 room)
    (log : cut.log = s.log) : Cut full s room (first ++ rest) whole after part cut := by
  have size : (first ++ rest).size = first.size + rest.size := ByteArray.size_append
  have all := grown.trans later
  refine ⟨all, ?_, ?_, ?_⟩
  · have front : (first ++ rest).extract 0 room = first.extract 0 room := by
      rw [ByteArray.extract_append, Nat.zero_sub, Nat.sub_eq_zero_of_le (Nat.le_of_lt short),
        ByteArray.extract_same, ByteArray.append_empty]
    rw [content, front]
  · intro fits
    omega
  · intro _
    exact ⟨refused, log ▸ all.log⟩

/-- The sink was full. -/
def SinkFull (refused : Option Fault) : Prop :=
  ∃ fault, refused = some fault ∧ fault.cause = .output .sinkFull

theorem play_limited {s : Session} (unbounded : s.sink.capacity = none) (base room : Nat)
    (events : List Event) :
    ∃ text, Cut (fun refused _ => SinkFull refused) s room text
      (s.play base events).2 (s.play base events).1
      ((s.limited room).play base events).2 ((s.limited room).play base events).1 := by
  induction events generalizing s room with
  | nil => exact ⟨.empty, Cut.refl _ s room none⟩
  | cons event events ih =>
      have one : s.Grows _ (s.perform base event.action).1 := grows_perform unbounded
      have unbounded' : (s.perform base event.action).1.sink.capacity = none := by
        rw [one.sink, unbounded]
      rw [play, play]
      by_cases fits : (bytes base s.options event.action).size ≤ room
      · rw [perform_limited_of_fits unbounded fits]
        cases performed : s.perform base event.action with
        | mk next refused =>
            rw [performed] at one unbounded'
            cases refused with
            | some fault => exact ⟨_, (Cut.refl _ next _ _).prepend one fits⟩
            | none =>
                obtain ⟨text, rest⟩ := ih unbounded' _
                exact ⟨_, rest.prepend one fits⟩
      · -- the limited run ends here; without a limit it goes on
        obtain ⟨accepted, refused, content, log⟩ :=
          perform_limited_of_full unbounded (Nat.not_le.mp fits)
        cases performed : s.perform base event.action with
        | mk next answer =>
            rw [performed] at one unbounded' accepted
            obtain rfl : answer = none := accepted
            cases performed' : (s.limited room).perform base event.action with
            | mk cut answer' =>
                rw [performed'] at refused content log
                obtain rfl : answer' = some .sinkFull := refused
                obtain ⟨text, rest⟩ := grows_play base next events
                have full := Fault.cause_ofPlaces event.places (.output .sinkFull)
                exact ⟨_, Cut.overrun one rest (Nat.not_le.mp fits) ⟨_, rfl, full⟩ content log⟩

/-! ### The refused event -/

theorem log_perform_of_accepted {s next : Session} {base : Nat} {event : Event}
    (h : s.perform base event.action = (next, none)) :
    next.log = s.log ++ event.record?.toList := by
  obtain rfl := (Prod.mk.inj h).1
  rcases event with ⟨places, action⟩
  cases action with
  | log record => rfl
  | write line => exact (List.append_nil _).symm
  | enter scope => exact (List.append_nil _).symm
  | flush => exact (List.append_nil _).symm

theorem log_perform_of_refused {s after : Session} {base : Nat} {action : Action}
    {refusal : OutputFault} (h : s.perform base action = (after, some refusal)) :
    after.log = s.log := by
  obtain ⟨rfl, refused⟩ := Prod.mk.inj h
  cases action with
  | log record => cases refused
  | write line => rfl
  | enter scope => rfl
  | flush => rfl

theorem log_play_of_accepted {s : Session} {base : Nat} {events : List Event}
    (accepted : (s.play base events).2 = none) :
    (s.play base events).1.log = s.log ++ events.filterMap Event.record? := by
  refine accepted_induction
    (motive := fun s events after => after.log = s.log ++ events.filterMap Event.record?)
    ?_ ?_ accepted
  · intro s
    exact (List.append_nil _).symm
  · intro s next after event events performed rest
    rw [rest, log_perform_of_accepted performed, List.append_assoc]
    cases here : event.record? <;> simp [here]

/-! ### The end of a script -/

theorem ending_limited {α : Type} (depth : Nat) (result : Except Fault α) (after : Session)
    (room : Nat) (refused : Option Fault) :
    ending depth result (after.limited room) refused =
      ((ending depth result after refused).1,
        (ending depth result after refused).2.limited room) := by
  cases refused <;> cases result <;> rfl

/-- The call has done all events before one that a full sink refuses, and none behind it. -/
def StoppedFull {α : Type} (s : Session) (events : List Event) (result : Except Fault α)
    (after : Session) : Prop :=
  ∃ done last rest, events = done ++ last :: rest ∧
    result = .error (.ofPlaces last.places (.output .sinkFull)) ∧
    after.log = s.log ++ done.filterMap Event.record?

theorem stoppedFull_of_sinkFull {α : Type} {s : Session} {m : Script α}
    (h : SinkFull (s.play s.depth m.events).2) :
    StoppedFull s m.events (s.run m).1 (s.run m).2 := by
  obtain ⟨fault, refused, full⟩ := h
  have played : s.play s.depth m.events = ((s.play s.depth m.events).1, some fault) :=
    Prod.ext rfl refused
  obtain ⟨done, last, rest, refusal, all, accepted, stopped, rfl⟩ := play_eq_refused played
  rw [Fault.cause_ofPlaces] at full
  obtain rfl : refusal = .sinkFull := Cause.output.inj full
  refine ⟨done, last, rest, all, ?_, ?_⟩
  · rw [run_eq_ending, refused]
    rfl
  · rw [run_eq_ending, log_ending, log_perform_of_refused stopped, log_play_of_accepted accepted]

theorem run_limited {α : Type} {s : Session} (unbounded : s.sink.capacity = none) (room : Nat)
    (m : Script α) :
    ∃ text, Cut (StoppedFull s m.events) s room text (s.run m).1 (s.run m).2
      ((s.limited room).run m).1 ((s.limited room).run m).2 := by
  obtain ⟨text, grows, content, of_fits, of_full⟩ := play_limited unbounded s.depth room m.events
  refine ⟨text, ⟨?_, ?_⟩, ?_, ?_, ?_⟩
  · rw [run_eq_ending, sink_ending, grows.sink]
  · rw [run_eq_ending, log_ending]
    exact grows.log
  · rw [run_eq_ending, sink_ending]
    exact content
  · intro fits
    obtain ⟨same, left⟩ := of_fits fits
    have depth : (s.limited room).depth = s.depth := rfl
    rw [run_eq_ending, run_eq_ending, depth, same, left, ending_limited]
    exact ⟨rfl, rfl⟩
  · intro short
    obtain ⟨full, earlier⟩ := of_full short
    refine ⟨stoppedFull_of_sinkFull full, ?_⟩
    rw [run_eq_ending, run_eq_ending, log_ending, log_ending]
    exact earlier

end Session

/-- Where the format has a writer, a limit cuts what a session without one would have written. -/
theorem Request.reply_limited {f : Format} {d : Dialect} (dialect : Dialect.ofFormat f = .ok d)
    (options : Options) (flushFails : Bool) (n : Nat) (r : Request) :
    let whole := r.reply f options { flushFails }
    let part := r.reply f options { capacity := some n, flushFails }
    part.text = whole.text.extract 0 n ∧
      (whole.text.size ≤ n → part = whole) ∧
      (n < whole.text.size →
        part.log <+: whole.log ∧
        ∃ done last rest, (r.script d options .empty).events = done ++ last :: rest ∧
          part.result = .error (.ofPlaces last.places (.output .sinkFull)) ∧
          part.log = done.filterMap Event.record?) := by
  rw [Request.reply_of_dialect dialect, Request.reply_of_dialect dialect]
  have start : ({ dialect := d, options, sink := { capacity := some n, flushFails } } : Session)
      = ({ dialect := d, options, sink := { flushFails } } : Session).limited n := by
    simp [Session.limited, Sink.limited]
  rw [start]
  obtain ⟨text, grows, content, of_fits, of_full⟩ :=
    Session.run_limited (s := { dialect := d, options, sink := { flushFails } }) rfl n
      (r.script d options .empty)
  have whole := congrArg Sink.content grows.sink
  change _ = ByteArray.empty ++ text at whole
  change _ = ByteArray.empty ++ text.extract 0 n at content
  rw [ByteArray.empty_append] at whole content
  simp only [Session.replied]
  rw [whole, content]
  refine ⟨rfl, ?_, ?_⟩
  · intro fits
    obtain ⟨same, rest⟩ := of_fits fits
    rw [same, rest, extract_of_size_le fits]
    rfl
  · intro short
    obtain ⟨⟨done, last, rest, all, failed, log⟩, earlier⟩ := of_full short
    exact ⟨earlier, done, last, rest, all, failed, log⟩

/-- A new sink gets of a text what fits; where that is all of it, nothing else is different. -/
theorem Request.reply_fitting {f : Format} {d : Dialect} (dialect : Dialect.ofFormat f = .ok d)
    (options : Options) (capacity : Option Nat) (flushFails : Bool) (r : Request) :
    let whole := r.reply f options { flushFails }
    let part := r.reply f options { capacity, flushFails }
    part.text = ({ capacity, flushFails } : Sink).fitting whole.text ∧
      (part.text = whole.text ∨ part.result = .ok () → part = whole) := by
  intro whole part
  cases capacity with
  | none => exact ⟨rfl, fun _ => rfl⟩
  | some n =>
      obtain ⟨cut, fits, full⟩ := reply_limited dialect options flushFails n r
      refine ⟨cut, ?_⟩
      intro good
      rcases Nat.lt_or_ge n whole.text.size with short | all
      · exfalso
        obtain ⟨-, done, last, rest, -, failed, -⟩ := full short
        rcases good with same | ok
        · have shorter : part.text.size ≤ n := by
            rw [cut, ByteArray.size_extract]
            omega
          rw [same] at shorter
          exact absurd short (Nat.not_lt.mpr shorter)
        · cases failed.symm.trans ok
      · exact fits all

/-- With room for `n` bytes the text is cut behind the `n`th byte. If all of it fits, nothing else
is different. If not, the write that no longer fits is reported with the places it belongs to, and
nothing behind it has been done. -/
theorem limited_sink_cuts_text (f : Format) (options : Options) (flushFails : Bool) (n : Nat)
    (r : Request) :
    let whole := r.reply f options { flushFails }
    let part := r.reply f options { capacity := some n, flushFails }
    part.text = whole.text.extract 0 (min n whole.text.size) ∧
      (whole.text.size ≤ n → part = whole) ∧
      (n < whole.text.size →
        part.log <+: whole.log ∧
        ∃ d done last rest, Dialect.ofFormat f = .ok d ∧
          (r.script d options .empty).events = done ++ last :: rest ∧
          part.result = .error (.ofPlaces last.places (.output .sinkFull)) ∧
          part.log = done.filterMap Event.record?) := by
  cases written : Dialect.ofFormat f with
  | error cause =>
      rw [Request.reply_of_unwritten written, Request.reply_of_unwritten written]
      refine ⟨?_, fun _ => rfl, ?_⟩
      · exact (extract_of_size_le (Nat.zero_le _)).symm
      · intro short
        exact absurd short (Nat.not_lt_zero n)
  | ok d =>
      obtain ⟨cut, fits, full⟩ := Request.reply_limited written options flushFails n r
      refine ⟨?_, fits, ?_⟩
      · rw [cut]
        exact extract_min_size _ n
      · intro short
        obtain ⟨earlier, done, last, rest, all, failed, log⟩ := full short
        exact ⟨earlier, d, done, last, rest, rfl, all, failed, log⟩

end CircuitNetlist
