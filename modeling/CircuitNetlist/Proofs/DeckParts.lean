import CircuitNetlist.Proofs.ComposedReplies
import CircuitNetlist.Proofs.DeckScripts

/-!
# The parts of a deck

A deck is put together of parts that could as well be written by sessions of their own: its header,
the package, the instance of the top module, the options, the control cards and the analyses. No
part sees more of those before it than whether they have failed.
-/
namespace CircuitNetlist

open Script

namespace Reply

/-- The reply where some lines are worked out and written. -/
def written (options : Options) (step : Except Cause (List Line)) : Reply :=
  match step with
  | .ok lines => ⟨.ok (), (Session.shown 0 options lines).toUTF8, []⟩
  | .error cause => ⟨.error (.plain cause), .empty, []⟩

/-- A step that writes nothing. -/
theorem text_checked {α : Type} (options : Options) (step : Except Cause α) :
    (written options (step.map fun _ => [])).text = .empty := by
  cases step with
  | error cause => rfl
  | ok a => rfl

def flushed (flushFails : Bool) : Reply :=
  ⟨if flushFails then .error (.plain (.output .flushFailed)) else .ok (), .empty, []⟩

def logged (level : LogLevel) (text : String) : Reply :=
  ⟨.ok (), .empty, [{ level, text }]⟩

end Reply

namespace SimulatorOption

/-- The line of an option with a value that the dialect can write. -/
def line (d : Dialect) (o : SimulatorOption) (value : ValueText) : Line :=
  .text 0 s!".option {o.name}={value.render d}"

/-- What is replied to an option. -/
def part (d : Dialect) (options : Options) (o : SimulatorOption) : Reply :=
  .written options ((o.text d).map fun line => [.text 0 line])

theorem line_of_text {d : Dialect} {o : SimulatorOption} {text : String} (h : o.text d = .ok text) :
    ∃ value, paramText d o.name o.value = .ok value ∧ Line.text 0 text = o.line d value := by
  rw [SimulatorOption.text, bind_eq_ok] at h
  obtain ⟨value, known, rest⟩ := h
  refine ⟨value, known, ?_⟩
  cases d <;> cases rest <;> rfl

end SimulatorOption

namespace SimulationInput

/-- How a dialect marks the title of a deck, and what it remarks behind the instance of the top
module. -/
def marks : Dialect → String × String
  | .spice => ("* ", "")
  | .hspice => ("* ", " $ Top-Level DUT")
  | .ngspice => ("* ", " // Top-Level DUT")
  | .xyce => ("; ", " ; Top-Level DUT")
  | .spectre => ("// ", " // Top-Level DUT")
  | .verilog => ("// ", "")

/-- The title comes first, and in one dialect two statements behind it. -/
theorem headerLines_eq (d : Dialect) (s : SimulationInput) :
    s.headerLines d
      = [.text 0 ((marks d).1 ++ s!"Simulation Input, top module `{s.top}`")]
        ++ (if d = .spectre then [.text 0 "simulator lang=spectre", .text 0 "global 0"] else [])
        ++ [.blank 0] := by
  have titled : (s!"Simulation Input, top module `{s.top}`").isEmpty = false := by
    simp [String.isEmpty_eq_false_iff, String.append_eq_empty_iff, toString]
  unfold headerLines Line.comment Dialect.comment
  rw [titled]
  cases d <;> rfl

/-- The one port of the top module is grounded. -/
theorem topLine_eq (d : Dialect) (name : String) :
    topLine d name = .text 0 ("xtop 0 " ++ sanitize name ++ (marks d).2) := by
  unfold topLine
  cases d with
  | spice => exact congrArg (Line.text 0) String.append_empty.symm
  | verilog => exact congrArg (Line.text 0) String.append_empty.symm
  | hspice => exact congrArg (Line.text 0) (String.append_assoc)
  | ngspice => exact congrArg (Line.text 0) (String.append_assoc)
  | xyce => exact congrArg (Line.text 0) (String.append_assoc)
  | spectre => exact congrArg (Line.text 0) (String.append_assoc)

/-- What is logged behind a deck. -/
def summary (d : Dialect) (s : SimulationInput) : String :=
  s!"wrote simulation input for `{s.top}` with {s.analyses.length} analyses as {d.format.name}"

/-- What new sessions reply to the parts of a deck. -/
def parts (f : Format) (d : Dialect) (options : Options) (flushFails : Bool)
    (s : SimulationInput) : List Reply :=
  let alone := fun r : Request => r.reply f options { flushFails }
  .written options ((s.usableTop d).map fun _ => []) ::
  .written options (.ok (s.headerLines d)) ::
  alone (.package s.package) ::
  .written options (.ok [topLine d s.top, .blank 0]) ::
    (s.options.map (SimulatorOption.part d options) ++
    (s.controls.map (fun c => alone (.card c)) ++
    (s.analyses.map (fun a => alone (.analysis a)) ++
      [.written options (.ok (endLines d)),
        .flushed flushFails,
        .logged .info (s.summary d)])))

theorem name_of_usable {d : Dialect} {s : SimulationInput} {top : Module}
    (usable : s.usableTop d = .ok top) : top.name = s.top := by
  obtain ⟨found, -⟩ := topModule_eq_ok.mp (usableTop_eq_ok.mp usable).2
  simpa using List.find?_some found

end SimulationInput

namespace Script
variable {d : Dialect} {options : Options} {flushFails : Bool}

theorem forget_unit (m : Script Unit) : m.forget = m := by
  rcases m with ⟨events, result⟩
  cases result <;> rfl

/-- The reply to a script is in front of those to the scripts behind it. -/
theorem reply_step {α β : Type} {m : Script α} {f : α → Script β} {first : Reply}
    {parts : List Reply} (here : m.forget.reply d options flushFails = first)
    (behind : ∀ a, m.result = .ok a → (f a).forget.reply d options flushFails = .sequence parts) :
    (m >>= f).forget.reply d options flushFails = .sequence (first :: parts) := by
  rw [reply_bind behind, here]
  rfl

theorem reply_forM {γ β : Type} {step : γ → Script Unit} {f : Unit → Script β}
    {part : γ → Reply} {parts : List Reply}
    (here : ∀ x, (step x).reply d options flushFails = part x)
    (behind : (f ()).forget.reply d options flushFails = .sequence parts) (xs : List γ) :
    (xs.forM step >>= f).forget.reply d options flushFails
      = .sequence (xs.map part ++ parts) := by
  induction xs with
  | nil =>
      change (pure () >>= f).forget.reply d options flushFails = _
      rw [pure_bind]
      exact behind
  | cons x xs ih =>
      change ((step x >>= fun _ => xs.forM step) >>= f).forget.reply d options flushFails = _
      rw [bind_assoc]
      apply reply_step
      · rw [forget_unit, here]
      · intro _ _
        exact ih

theorem reply_check {α : Type} (step : Except Cause α) :
    (check step).forget.reply d options flushFails
      = .written options (step.map fun _ => []) := by
  cases step with
  | error cause => rfl
  | ok a => rfl

theorem reply_writeAll (lines : List Line) :
    (writeAll lines).reply d options flushFails = .written options (.ok lines) := by
  have events : (writeAll lines).events.filterMap Event.line? = lines :=
    (writes_writeAll (u := ())).mpr rfl |>.written
  have unlogged : (writeAll lines).events.filterMap Event.record? = [] := by
    simp [writeAll, Event.record?]
  have accepted :
      ((Session.fresh d options flushFails).play 0 (writeAll lines).events).2 = none := by
    apply Session.accepted_of_unbounded rfl
    simp [writeAll]
  have taken := Session.took_of_played accepted
  have logged := Session.log_play_of_accepted accepted
  rw [reply_of_accepted (Prod.ext rfl accepted), taken.sink, logged, events, unlogged]
  change Reply.mk _ (ByteArray.empty ++ _) _ = _
  rw [ByteArray.empty_append]
  rfl

/-- Lines that are worked out first and then written. -/
theorem reply_check_writeAll {α : Type} (step : Except Cause α) (lines : α → List Line) :
    (check step >>= fun a => writeAll (lines a)).reply d options flushFails
      = .written options (step.map lines) := by
  cases step with
  | error cause => rfl
  | ok a =>
      change (pure a >>= fun a => writeAll (lines a)).reply d options flushFails = _
      rw [pure_bind]
      exact reply_writeAll (lines a)

end Script

section Decks
variable {f : Format} {d : Dialect} {options : Options} {flushFails : Bool} {s : SimulationInput}

/-- The reply to a deck is composed of those to its parts. -/
theorem SimulationInput.reply_eq_sequence (dialect : Dialect.ofFormat f = .ok d) :
    (Request.deck s).reply f options { flushFails }
      = .sequence (s.parts f d options flushFails) := by
  have alone := fun r => @Request.reply_eq_script d options flushFails f dialect r
  have lines := fun lines => (congrArg _ (forget_unit (writeAll lines))).trans
    (@reply_writeAll d options flushFails lines)
  rw [Request.reply_eq_script dialect]
  change (s.script d options .empty).forget.reply d options flushFails = _
  rw [script_eq]
  refine reply_step (reply_check _) fun top usable => ?_
  rw [name_of_usable (result_check_eq_ok.mp usable)]
  refine reply_step (lines _) fun _ _ => ?_
  refine reply_step (alone (.package s.package)).symm fun scope _ => ?_
  refine reply_step (lines _) fun _ _ => ?_
  refine reply_forM (fun o => ?_) ?_ s.options
  · exact reply_check_writeAll (o.text d) fun line => [.text 0 line]
  refine reply_forM (fun c => (alone (.card c)).symm) ?_ s.controls
  refine reply_forM (fun a => (alone (.analysis a)).symm) ?_ s.analyses
  refine reply_step (lines _) fun _ _ => ?_
  refine reply_step ?_ fun _ _ => ?_
  · cases flushFails <;> rfl
  exact reply_step rfl fun _ _ => rfl

/-! ### Decks that are written well -/

theorem SimulatorOption.part_of_ok {o : SimulatorOption}
    (ok : (o.part d options).result = .ok ()) :
    ∃ value, paramText d o.name o.value = .ok value ∧
      (o.part d options).text = (Session.shown 0 options [o.line d value]).toUTF8 := by
  unfold part at ok ⊢
  cases written : o.text d with
  | error cause =>
      rw [written] at ok
      cases ok
  | ok text =>
      obtain ⟨value, valued, same⟩ := line_of_text written
      refine ⟨value, valued, ?_⟩
      rw [← same]
      rfl

/-- Options that are written have one line each. -/
theorem SimulatorOption.texts_parts {os : List SimulatorOption}
    (ok : ∀ o ∈ os, (o.part d options).result = .ok ()) :
    ∃ values, os.mapM (fun o => paramText d o.name o.value) = .ok values ∧
      Reply.texts (os.map (part d options))
        = (Session.shown 0 options (List.zipWith (line d) os values)).toUTF8 := by
  induction os with
  | nil => exact ⟨[], rfl, rfl⟩
  | cons o os ih =>
      rw [List.forall_mem_cons] at ok
      obtain ⟨values, others, texts⟩ := ih ok.2
      obtain ⟨value, valued, first⟩ := part_of_ok ok.1
      refine ⟨value :: values, ?_, ?_⟩
      · simp only [List.mapM_cons, bind_eq_ok, pure_eq_ok]
        exact ⟨value, valued, values, others, rfl⟩
      · have joined := Session.shown_append 0 options [o.line d value]
          (List.zipWith (line d) os values)
        rw [List.map_cons, Reply.texts_cons, first, texts, List.zipWith_cons_cons]
        change _ = (Session.shown 0 options ([o.line d value] ++ _)).toUTF8
        rw [joined]
        exact String.toByteArray_append.symm

/-- The text of a deck that is written well. -/
theorem SimulationInput.text_of_deck (dialect : Dialect.ofFormat f = .ok d)
    (ok : ((Request.deck s).reply f options { flushFails }).result = .ok ()) :
    let alone := fun r : Request => r.reply f options { flushFails }
    let shown := fun lines => (Session.shown 0 options lines).toUTF8
    (alone (.package s.package)).result = .ok () ∧
      (∀ c ∈ s.controls, (alone (.card c)).result = .ok ()) ∧
      (∀ a ∈ s.analyses, (alone (.analysis a)).result = .ok ()) ∧
      ∃ values, s.options.mapM (fun o => paramText d o.name o.value) = .ok values ∧
        ((Request.deck s).reply f options { flushFails }).text
          = shown (s.headerLines d) ++ (alone (.package s.package)).text
            ++ shown [topLine d s.top, .blank 0]
            ++ shown (List.zipWith (SimulatorOption.line d) s.options values)
            ++ Reply.texts (s.controls.map fun c => alone (.card c))
            ++ Reply.texts (s.analyses.map fun a => alone (.analysis a))
            ++ shown (endLines d) := by
  intro alone shown
  have composed := @reply_eq_sequence f d options flushFails s dialect
  rw [composed] at ok ⊢
  rw [Reply.text_of_sequence ok]
  rw [Reply.sequence_eq_ok] at ok
  simp only [parts, List.forall_mem_cons, List.forall_mem_append, List.forall_mem_map] at ok
  obtain ⟨-, -, package, -, opts, cards, analyses, -⟩ := ok
  obtain ⟨values, valued, texts⟩ := SimulatorOption.texts_parts opts
  refine ⟨package, cards, analyses, values, valued, ?_⟩
  have closing : (Reply.flushed flushFails).text
      ++ ((Reply.logged .info (s.summary d)).text ++ Reply.texts []) = .empty := by
    change ByteArray.empty ++ (ByteArray.empty ++ .empty) = .empty
    rw [ByteArray.empty_append, ByteArray.empty_append]
  simp only [parts, Reply.texts_cons, Reply.texts_append, texts, Reply.text_checked, closing,
    ByteArray.append_assoc, ByteArray.empty_append, ByteArray.append_empty]
  rfl

/-- A deck ends where its package fails. -/
theorem SimulationInput.reply_of_failed_package {top : Module} {fault : Fault}
    (dialect : Dialect.ofFormat f = .ok d) (usable : s.usableTop d = .ok top)
    (failed : ((Request.package s.package).reply f options { flushFails }).result = .error fault) :
    (Request.deck s).reply f options { flushFails } =
      ⟨.error fault,
        (Session.shown 0 options (s.headerLines d)).toUTF8
          ++ ((Request.package s.package).reply f options { flushFails }).text,
        ((Request.package s.package).reply f options { flushFails }).log⟩ := by
  rw [reply_eq_sequence dialect, parts, usable, Reply.sequence_of_ok rfl, Reply.sequence_of_ok rfl,
    Reply.sequence_of_error failed, failed]
  change Reply.mk _ (ByteArray.empty ++ _) _ = _
  rw [ByteArray.empty_append]
  rfl

/-- A deck that has no usable top module is not begun. -/
theorem SimulationInput.reply_of_unusable {cause : Cause} (dialect : Dialect.ofFormat f = .ok d)
    (unusable : s.usableTop d = .error cause) :
    (Request.deck s).reply f options { flushFails } = ⟨.error (.plain cause), .empty, []⟩ := by
  rw [reply_eq_sequence dialect, parts, unusable]
  exact @Reply.sequence_of_error (.written options (.error cause)) (.plain cause) rfl _

/-- A deck that is written well is its header, what a session of its own writes for the package, the
instance of the top module, a line for every option and what sessions of their own write for the
cards and the analyses, and in the Spice family a last line. The header is a title and, for Spectre,
two statements more. Where the package fails, the deck ends with that fault and has its header and
the part of the package; only a top module that cannot be used comes before that. -/
theorem deck_composed_of_parts (dialect : Dialect.ofFormat f = .ok d) (options : Options)
    (capacity : Option Nat) (flushFails : Bool) (s : SimulationInput) :
    let sink : Sink := { capacity, flushFails }
    let deck := (Request.deck s).reply f options sink
    let alone := fun r : Request => r.reply f options { flushFails }
    let shown := fun lines => (Session.shown 0 options lines).toUTF8
    let header := shown ([.text 0 ((SimulationInput.marks d).1
          ++ s!"Simulation Input, top module `{s.top}`")]
        ++ (if d = .spectre then [.text 0 "simulator lang=spectre", .text 0 "global 0"] else [])
        ++ [.blank 0])
    (deck.result = .ok () →
      (alone (.package s.package)).result = .ok () ∧
      (∀ c ∈ s.controls, (alone (.card c)).result = .ok ()) ∧
      (∀ a ∈ s.analyses, (alone (.analysis a)).result = .ok ()) ∧
      ∃ values, s.options.mapM (fun o => paramText d o.name o.value) = .ok values ∧
        deck.text
          = header ++ (alone (.package s.package)).text
            ++ shown [.text 0 ("xtop 0 " ++ sanitize s.top ++ (SimulationInput.marks d).2),
              .blank 0]
            ++ shown (List.zipWith (SimulatorOption.line d) s.options values)
            ++ Reply.texts (s.controls.map fun c => alone (.card c))
            ++ Reply.texts (s.analyses.map fun a => alone (.analysis a))
            ++ shown (if d.family = .spice then [.text 0 ".end"] else [])) ∧
    (∀ cause, s.usableTop d = .error cause → deck = ⟨.error (.plain cause), .empty, []⟩) ∧
    ∀ top fault, s.usableTop d = .ok top → (alone (.package s.package)).result = .error fault →
      deck.text = sink.fitting (header ++ (alone (.package s.package)).text) ∧
      (deck.text = header ++ (alone (.package s.package)).text → deck.result = .error fault) := by
  intro sink deck alone shown header
  have titled : header = shown (s.headerLines d) := by rw [SimulationInput.headerLines_eq]
  rw [titled, ← SimulationInput.topLine_eq]
  obtain ⟨cut, same⟩ := Request.reply_fitting dialect options capacity flushFails (.deck s)
  refine ⟨?_, ?_, ?_⟩
  · intro ok
    have whole : deck = alone (.deck s) := same (.inr ok)
    rw [whole] at ok ⊢
    exact SimulationInput.text_of_deck dialect ok
  · intro cause unusable
    have whole := @SimulationInput.reply_of_unusable f d options flushFails s cause dialect unusable
    rw [whole] at cut same
    exact same (.inl (cut.trans (Sink.fitting_empty _)))
  · intro top fault usable failed
    have whole := SimulationInput.reply_of_failed_package dialect usable failed
    rw [whole] at cut same
    refine ⟨cut, ?_⟩
    intro all
    exact congrArg Reply.result (same (.inl all))

end Decks

/-- A module with the one port `vss` and the given instances. -/
def grounded (instances : List Instance) : Module :=
  { name := "top", ports := [{ signal := "vss" }], signals := [.scalar "vss"], instances }

/-- A deck around it. -/
def bench (instances : List Instance) : SimulationInput :=
  { package := { modules := [grounded instances] },
    top := "top",
    options := [{ name := "itl1", value := .int 100 }],
    controls := [.literal "* tail"],
    analyses := [.operatingPoint { name := "op" }] }

/-- An instance of a module that is not there. -/
def lost : Instance :=
  { name := "u", reference := .internal "missing" }

/-- The deck has its title, its instance, its option and its last line; with an instance that refers
to nothing it ends in the module of that instance, behind its title. -/
theorem deck_composed_of_parts_lost_instance :
    ((Request.deck (bench [])).reply .ngspice {} {}).text
      = (Session.shown 0 {} [.text 0 "* Simulation Input, top module `top`", .blank 0]).toUTF8
        ++ ((Request.package (bench []).package).reply .ngspice {} {}).text
        ++ (Session.shown 0 {} [.text 0 "xtop 0 top // Top-Level DUT", .blank 0]).toUTF8
        ++ (Session.shown 0 {} [.text 0 ".option itl1=100"]).toUTF8
        ++ ((Request.card (.literal "* tail")).reply .ngspice {} {}).text
        ++ ((Request.analysis (.operatingPoint { name := "op" })).reply .ngspice {} {}).text
        ++ (Session.shown 0 {} [.text 0 ".end"]).toUTF8 ∧
    ((Request.deck (bench [lost])).reply .ngspice {} {}).result
      = .error (.ofPlaces [.moduleNamed "top", .instanceNamed "u"] (.undefinedModule "missing")) ∧
    ((Request.deck (bench [lost])).reply .ngspice {} {}).text
      = (Session.shown 0 {} [.text 0 "* Simulation Input, top module `top`", .blank 0]).toUTF8
        ++ ((Request.package (bench [lost]).package).reply .ngspice {} {}).text := by
  have dialect : Dialect.ofFormat .ngspice = .ok .ngspice := rfl
  have written : ((Request.deck (bench [])).reply .ngspice {} {}).result = .ok () :=
    Request.result_of_unlimited dialect _
  have failed : ((Request.package (bench [lost]).package).reply .ngspice {} {}).result = .error _ :=
    Request.result_of_unlimited dialect _
  have one : ∀ part : Reply, Reply.texts [part] = part.text := fun _ => ByteArray.append_empty
  refine ⟨?_, ?_⟩
  · obtain ⟨of_written, -, -⟩ := deck_composed_of_parts dialect {} none false (bench [])
    obtain ⟨-, -, -, values, valued, text⟩ := of_written written
    have known :
        (bench []).options.mapM (fun o => paramText .ngspice o.name o.value) = .ok [_] := rfl
    obtain rfl := Except.ok.inj (known.symm.trans valued)
    refine text.trans ?_
    change _ ++ Reply.texts [_] ++ Reply.texts [_] ++ _ = _
    rw [one, one]
    rfl
  · obtain ⟨-, -, of_failed⟩ := deck_composed_of_parts dialect {} none false (bench [lost])
    obtain ⟨text, result⟩ := of_failed _ _ rfl failed
    exact ⟨result text, text⟩

end CircuitNetlist
