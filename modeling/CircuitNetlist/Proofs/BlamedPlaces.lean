import CircuitNetlist.Proofs.Outcomes

/-!
# What a fault is blamed on

A package that is at fault is written up to the fault, which names the module and the instance that
were being written. A script that stops is taken apart like one that ends well: its lines are those
of the parts that are done and those of the part that stops. So all modules in front of the blamed
one stand in the text, and so do all instances in front of a blamed instance, which itself has left
nothing.
-/
namespace CircuitNetlist

namespace Script
variable {α β σ κ : Type}

/-- The script ends in a fault after writing exactly these lines. -/
structure Stops (m : Script α) (lines : List Line) (fault : Fault) : Prop where
  result : m.result = .error fault
  written : m.lines = lines

theorem stops_of_result {m : Script α} {fault : Fault} (h : m.result = .error fault) :
    m.Stops m.lines fault :=
  ⟨h, rfl⟩

/-- A sequence stops in its first part, or in the rest behind the lines of a good first part. -/
theorem stops_bind {m : Script α} {f : α → Script β} {ls : List Line} {fault : Fault} :
    (m >>= f).Stops ls fault ↔ m.Stops ls fault ∨
      ∃ a before after, m.Writes before a ∧ (f a).Stops after fault ∧ ls = before ++ after := by
  cases result : m.result with
  | error first =>
      constructor
      · intro stops
        have same : first = fault := by
          have ends := stops.result
          rw [bind_of_error result] at ends
          exact Except.error.inj ends
        exact .inl ⟨same ▸ result, by rw [← stops.written, lines_bind_of_error result]⟩
      · rintro (stops | ⟨a, before, after, written, -, -⟩)
        · exact ⟨by rw [bind_of_error stops.result],
            by rw [lines_bind_of_error result, stops.written]⟩
        · cases result.symm.trans written.result
  | ok a =>
      constructor
      · intro stops
        have ends := stops.result
        rw [bind_of_ok result] at ends
        refine .inr ⟨a, m.lines, (f a).lines, ⟨result, rfl⟩, ⟨ends, rfl⟩, ?_⟩
        rw [← stops.written, lines_bind_of_ok result]
      · rintro (stops | ⟨a', before, after, written, stops, rfl⟩)
        · cases result.symm.trans stops.result
        · obtain rfl := Except.ok.inj (result.symm.trans written.result)
          refine ⟨by rw [bind_of_ok result, stops.result], ?_⟩
          rw [lines_bind_of_ok result, written.written, stops.written]

theorem not_stops_of_ok {m : Script α} {a : α} (ok : m.result = .ok a) {ls : List Line}
    {fault : Fault} : ¬ m.Stops ls fault := by
  intro stops
  cases ok.symm.trans stops.result

/-- Behind a part that ends well the rest stops. -/
theorem stops_bind_of_writes {m : Script α} {before : List Line} {a : α} (good : m.Writes before a)
    {f : α → Script β} {ls : List Line} {fault : Fault} :
    (m >>= f).Stops ls fault ↔ ∃ after, (f a).Stops after fault ∧ ls = before ++ after := by
  rw [stops_bind]
  constructor
  · rintro (stops | ⟨a', front, after, written, stops, rfl⟩)
    · exact absurd stops (not_stops_of_ok good.result)
    · obtain rfl := Except.ok.inj (good.result.symm.trans written.result)
      exact ⟨after, stops, by rw [← written.written, good.written]⟩
  · rintro ⟨after, stops, rfl⟩
    exact .inr ⟨a, before, after, good, stops, rfl⟩

/-- What writes nothing and always ends well can be left out. -/
theorem stops_bind_of_silent {m : Script α} {a : α} (quiet : m.Writes [] a) {f : α → Script β}
    {ls : List Line} {fault : Fault} : (m >>= f).Stops ls fault ↔ (f a).Stops ls fault := by
  rw [stops_bind_of_writes quiet]
  constructor
  · rintro ⟨after, stops, rfl⟩
    exact stops
  · exact fun stops => ⟨ls, stops, rfl⟩

theorem stops_write_bind {line : Line} {f : Unit → Script β} {ls : List Line} {fault : Fault} :
    (write line >>= f).Stops ls fault ↔ ∃ rest, (f ()).Stops rest fault ∧ ls = line :: rest :=
  stops_bind_of_writes (writes_write.mpr rfl)

theorem stops_writeAll_bind {lines : List Line} {f : Unit → Script β} {ls : List Line}
    {fault : Fault} :
    (writeAll lines >>= f).Stops ls fault ↔ ∃ rest, (f ()).Stops rest fault ∧ ls = lines ++ rest :=
  stops_bind_of_writes (writes_writeAll.mpr rfl)

/-- A step stops for its own cause, at no place in particular. -/
theorem stops_check {step : Except Cause α} {ls : List Line} {fault : Fault} :
    (check step).Stops ls fault ↔
      ls = [] ∧ ∃ cause, step = .error cause ∧ fault = .plain cause := by
  cases step with
  | ok a => simpa using not_stops_of_ok rfl
  | error cause =>
      constructor
      · intro stops
        exact ⟨stops.written.symm, cause, rfl, (Except.error.inj stops.result).symm⟩
      · rintro ⟨rfl, cause', same, rfl⟩
        obtain rfl := Except.error.inj same
        exact ⟨rfl, rfl⟩

theorem stops_check_bind {step : Except Cause α} {f : α → Script β} {ls : List Line}
    {fault : Fault} :
    (check step >>= f).Stops ls fault ↔
      (ls = [] ∧ ∃ cause, step = .error cause ∧ fault = .plain cause) ∨
        ∃ a, step = .ok a ∧ (f a).Stops ls fault := by
  cases step with
  | ok a =>
      rw [stops_bind_of_silent (writes_check.mpr ⟨rfl, rfl⟩)]
      simp
  | error cause =>
      rw [stops_bind, stops_check]
      simp

/-- A call of the scope stops if it is refused, and else the rest stops in the scope that it
leaves. -/
theorem stops_use_bind {step : Except Cause α × Scope} {f : α × Scope → Script β} {ls : List Line}
    {fault : Fault} :
    (use step >>= f).Stops ls fault ↔
      (ls = [] ∧ ∃ cause, step.1 = .error cause ∧ fault = .plain cause) ∨
        ∃ a after, step = (.ok a, after) ∧ (f (a, after)).Stops ls fault := by
  rw [use_bind, stops_bind_of_silent ⟨rfl, rfl⟩, stops_check_bind]
  refine or_congr Iff.rfl ⟨?_, ?_⟩
  · rintro ⟨a, ok, stops⟩
    exact ⟨a, step.2, Prod.ext ok rfl, stops⟩
  · rintro ⟨a, after, rfl, stops⟩
    exact ⟨a, rfl, stops⟩

theorem stops_within {place : Place} {m : Script α} {ls : List Line} {fault : Fault} :
    (m.within place).Stops ls fault ↔ ∃ inner, m.Stops ls inner ∧ fault = inner.within place := by
  constructor
  · rintro ⟨ends, rfl⟩
    rw [lines_within]
    cases result : m.result with
    | ok a =>
        rw [within, result] at ends
        cases ends
    | error inner =>
        rw [within, result] at ends
        exact ⟨inner, ⟨result, rfl⟩, (Except.error.inj ends).symm⟩
  · rintro ⟨inner, ⟨result, rfl⟩, rfl⟩
    refine ⟨?_, lines_within place m⟩
    rw [within, result]
    rfl

/-- A run stops at its first element that does, behind the lines of those before it. -/
theorem stops_foldlM {step : σ → κ → Script σ} {xs : List κ} {s : σ} {ls : List Line}
    {fault : Fault} :
    (xs.foldlM step s).Stops ls fault ↔
      ∃ done x rest between front part, xs = done ++ x :: rest ∧
        (done.foldlM step s).Writes front between ∧ (step between x).Stops part fault ∧
        ls = front ++ part := by
  constructor
  · intro stops
    have ends := stops.result
    rw [result_foldlM, foldlM_eq_error] at ends
    obtain ⟨done, x, rest, between, rfl, before, failed⟩ := ends
    rw [← result_foldlM] at before
    refine ⟨done, x, rest, between, _, _, rfl, writes_of_result before, stops_of_result failed, ?_⟩
    have here : ((x :: rest).foldlM step between).lines = (step between x).lines := by
      rw [List.foldlM_cons, lines_bind_of_error failed]
    rw [← stops.written, List.foldlM_append, lines_bind_of_ok before, here]
  · rintro ⟨done, x, rest, between, front, part, rfl, before, stops, rfl⟩
    rw [List.foldlM_append, stops_bind]
    refine .inr ⟨between, front, part, before, ?_, rfl⟩
    rw [List.foldlM_cons, stops_bind]
    exact .inl stops

end Script

open Script

/-! ### Instances -/

/-- Why an instance of a module with the given signals is refused. -/
inductive Instance.Refused (d : Dialect) (t : SignalTable) (scope : Scope) (i : Instance) :
    Cause → Prop
  | reference {cause : Cause} :
      (scope.resolve i.reference).1 = .error cause → Refused d t scope i cause
  | parameters {target : Resolved} {after : Scope} {cause : Cause} :
      scope.resolve i.reference = (.ok target, after) →
      resolveParams d i.parameters target.parameters = .error cause → Refused d t scope i cause
  | connections {target : Resolved} {after : Scope} {merged : ResolvedParams} {cause : Cause} :
      scope.resolve i.reference = (.ok target, after) →
      resolveParams d i.parameters target.parameters = .ok merged →
      bindPorts d t target i.connections = .error cause → Refused d t scope i cause
  | layout {target : Resolved} {after : Scope} {merged : ResolvedParams}
      {bindings : List PortBinding} {cause : Cause} :
      scope.resolve i.reference = (.ok target, after) →
      resolveParams d i.parameters target.parameters = .ok merged →
      bindPorts d t target i.connections = .ok bindings →
      instanceLines d i target merged.table bindings = .error cause → Refused d t scope i cause

/-- An instance that stops has written nothing, and its fault names it and nothing else. -/
theorem Instance.refused_of_stops {d : Dialect} {t : SignalTable} {scope : Scope} {i : Instance}
    {ls : List Line} {fault : Fault} (stops : (i.script d t scope).Stops ls fault) :
    ls = [] ∧ ∃ cause, i.Refused d t scope cause ∧
      fault = .within (.instanceNamed i.name) (.plain cause) := by
  unfold Instance.script at stops
  obtain ⟨inner, atTarget, rfl⟩ := stops_within.mp stops
  obtain ⟨rfl, cause, failed, rfl⟩ | ⟨target, after, resolved, atParameters⟩ :=
    stops_use_bind.mp atTarget
  · exact ⟨rfl, cause, .reference failed, rfl⟩
  obtain ⟨rfl, cause, failed, rfl⟩ | ⟨merged, resolves, warning⟩ := stops_check_bind.mp atParameters
  · exact ⟨rfl, cause, .parameters resolved failed, rfl⟩
  have atBindings := (stops_bind_of_silent
    ⟨result_warnUndeclared _, lines_warnUndeclared merged.undeclared⟩).mp warning
  obtain ⟨rfl, cause, failed, rfl⟩ | ⟨bindings, bound, logging⟩ := stops_check_bind.mp atBindings
  · exact ⟨rfl, cause, .connections resolved resolves failed, rfl⟩
  have atLayout := (stops_bind_of_silent ⟨rfl, rfl⟩).mp logging
  obtain ⟨rfl, cause, failed, rfl⟩ | ⟨lines, laid, writing⟩ := stops_check_bind.mp atLayout
  · exact ⟨rfl, cause, .layout resolved resolves bound failed, rfl⟩
  · exact absurd writing (not_stops_of_ok rfl)

/-! ### Modules -/

namespace Module
variable {d : Dialect} {scope : Scope} {m : Module}

/-- Why a module is refused before its first instance, and what it has written by then. -/
inductive Unopened (d : Dialect) (scope : Scope) (m : Module) : List Line → Cause → Prop
  | name {cause : Cause} : (scope.define m).1 = .error cause → Unopened d scope m [] cause
  | signals {name : String} {inner : Scope} {cause : Cause} :
      scope.define m = (.ok name, inner) → SignalTable.ofModule m = .error cause →
      Unopened d scope m [] cause
  | opening {name : String} {inner : Scope} {t : SignalTable} {part : List Line} {cause : Cause} :
      scope.define m = (.ok name, inner) → SignalTable.ofModule m = .ok t →
      m.openingLines d name t = .error cause →
      (m.openingScript d name t).Stops part (.plain cause) → Unopened d scope m part cause

/-- A module that stops at an instance has its opening and all instances before that one. -/
structure StoppedAt (d : Dialect) (scope : Scope) (m : Module) (name : String) (t : SignalTable)
    (opening inside : List Line) (done : List Instance) (i : Instance) (cause : Cause) : Prop where
  defined : ∃ inner between, scope.define m = (.ok name, inner) ∧
    (Instance.scriptAll d t inner done).Writes inside between ∧ i.Refused d t between cause
  table : SignalTable.ofModule m = .ok t
  opened : m.openingLines d name t = .ok opening
  split : ∃ rest, m.instances = done ++ i :: rest

theorem stops_opened {head nodes gap : Line} {parameters : Except Cause Line} {ls : List Line}
    {fault : Fault}
    (stops : (write head >>= fun _ => write nodes >>= fun _ => check parameters >>= fun line =>
        write line >>= fun _ => write gap).Stops ls fault) :
    ls = [head, nodes] ∧ ∃ cause, parameters = .error cause ∧ fault = .plain cause := by
  obtain ⟨behindHead, atNodes, rfl⟩ := stops_write_bind.mp stops
  obtain ⟨behindNodes, atLine, rfl⟩ := stops_write_bind.mp atNodes
  obtain ⟨rfl, failed⟩ | ⟨line, -, atGap⟩ := stops_check_bind.mp atLine
  · exact ⟨rfl, failed⟩
  · exact absurd atGap (not_stops_of_ok rfl)

/-- An opening that stops does so at no place in particular, and has no complete lines. -/
theorem opening_of_stops {name : String} {t : SignalTable} {ls : List Line} {fault : Fault}
    (stops : (m.openingScript d name t).Stops ls fault) :
    ∃ cause, m.openingLines d name t = .error cause ∧ fault = .plain cause := by
  unfold openingScript at stops
  unfold openingLines
  cases family : d.family with
  | spice =>
      rw [family] at stops
      obtain ⟨-, cause, failed, rfl⟩ := stops_opened stops
      exact ⟨cause, bind_eq_error.mpr (.inl failed), rfl⟩
  | spectre =>
      rw [family] at stops
      obtain ⟨-, cause, failed, rfl⟩ := stops_opened stops
      exact ⟨cause, bind_eq_error.mpr (.inl failed), rfl⟩
  | verilog =>
      rw [family] at stops
      obtain ⟨behindHead, atParameters, -⟩ := stops_write_bind.mp stops
      obtain ⟨-, cause, failed, rfl⟩ | ⟨parameters, good, written⟩ :=
        stops_check_bind.mp atParameters
      · exact ⟨cause, bind_eq_error.mpr (.inl failed), rfl⟩
      obtain ⟨behindParameters, atPorts, -⟩ := stops_writeAll_bind.mp written
      obtain ⟨-, cause, failed, rfl⟩ | ⟨ports, -, atGap⟩ := stops_check_bind.mp atPorts
      · exact ⟨cause, bind_eq_error.mpr (.inr ⟨parameters, good,
          bind_eq_error.mpr (.inl failed)⟩), rfl⟩
      · exact absurd atGap (not_stops_of_ok rfl)

/-- A module stops before its instances, or at one of them; it is blamed itself, or the instance in
it. -/
theorem stopped_of_stops {ls : List Line} {fault : Fault}
    (stops : (m.script d scope).Stops ls fault) :
    (∃ cause, m.Unopened d scope ls cause ∧ fault = .within (.moduleNamed m.name) (.plain cause)) ∨
      ∃ name t opening inside done i cause,
        m.StoppedAt d scope name t opening inside done i cause ∧ ls = opening ++ inside ∧
        fault = .within (.moduleNamed m.name) (.within (.instanceNamed i.name) (.plain cause)) := by
  unfold script at stops
  obtain ⟨within, atName, rfl⟩ := stops_within.mp stops
  obtain ⟨rfl, cause, failed, rfl⟩ | ⟨name, inner, defined, atTable⟩ := stops_use_bind.mp atName
  · exact .inl ⟨cause, .name failed, rfl⟩
  obtain ⟨rfl, cause, failed, rfl⟩ | ⟨t, table, logging⟩ := stops_check_bind.mp atTable
  · exact .inl ⟨cause, .signals defined failed, rfl⟩
  have atLayout := (stops_bind_of_silent ⟨rfl, rfl⟩).mp logging
  rw [layout_eq, stops_bind] at atLayout
  obtain atOpening | ⟨u, opening, behind, opened, afterOpening, rfl⟩ := atLayout
  · obtain ⟨cause, failed, rfl⟩ := opening_of_stops atOpening
    exact .inl ⟨cause, .opening defined table failed atOpening, rfl⟩
  obtain atInstances | ⟨after, body, closing, -, atClosing, -⟩ := stops_bind.mp afterOpening
  · obtain ⟨done, i, rest, between, inside, part, split, before, atInstance, rfl⟩ :=
      stops_foldlM.mp atInstances
    obtain ⟨rfl, cause, refused, rfl⟩ := Instance.refused_of_stops atInstance
    rw [List.append_nil]
    exact .inr ⟨name, t, opening, inside, done, i, cause,
      ⟨⟨inner, between, defined, before, refused⟩, table, writes_opening.mp opened, rest, split⟩,
      rfl, rfl⟩
  · exact absurd atClosing (not_stops_of_ok rfl)

end Module

/-! ### Packages -/

/-- A package stops at an external module, without a line, or at a module behind those that are
done. -/
theorem Package.stopped_of_stops {d : Dialect} {options : Options} {scope : Scope} {p : Package}
    {ls : List Line} {fault : Fault} (stops : (p.script d options scope).Stops ls fault) :
    (ls = [] ∧ ∃ cause, p.externals.foldlM Scope.registered scope = .error cause ∧
      fault = .plain cause) ∨
    ∃ registered done m rest between front part,
      p.externals.foldlM Scope.registered scope = .ok registered ∧ p.modules = done ++ m :: rest ∧
      (done.foldlM (Module.script d) registered).Writes front between ∧
      (m.script d between).Stops part fault ∧ ls = p.headerLines d options ++ front ++ part := by
  unfold script at stops
  obtain atExternals | ⟨registered, silent, behind, written, atHeader, rfl⟩ := stops_bind.mp stops
  · left
    have failed := atExternals.result
    rw [ExternalModule.result_scripts, foldlM_asFault] at failed
    refine ⟨by rw [← atExternals.written, lines_registration], ?_⟩
    cases refused : p.externals.foldlM Scope.registered scope with
    | ok registered =>
        rw [refused] at failed
        cases failed
    | error cause =>
        rw [refused] at failed
        exact ⟨cause, rfl, (Except.error.inj failed).symm⟩
  right
  obtain ⟨rfl, known⟩ := ExternalModule.writes_scripts.mp written
  obtain ⟨afterHeader, atModules, rfl⟩ := stops_writeAll_bind.mp atHeader
  obtain failing | ⟨after, body, closing, -, atEnd, -⟩ := stops_bind.mp atModules
  · obtain ⟨done, m, rest, between, front, part, split, before, atModule, rfl⟩ :=
      stops_foldlM.mp failing
    exact ⟨registered, done, m, rest, between, front, part, known, split, before, atModule,
      by simp⟩
  · exact absurd atEnd (not_stops_of_ok rfl)

/-! ### What is written as a whole -/

/-- The lines are all that is written for the instance, in some scope. -/
def Instance.IsWhole (d : Dialect) (t : SignalTable) (i : Instance) (ls : List Line) : Prop :=
  ∃ before target merged bindings after, i.Written d t before target merged bindings ls after

/-- The lines are the whole definition of the module, as it is written in some scope. -/
def Module.IsWhole (d : Dialect) (m : Module) (ls : List Line) : Prop :=
  ∃ before inner name t opening inside after,
    m.Written d before inner name t opening inside after ∧
      ls = opening ++ inside ++ m.closingLines d name

theorem Instance.whole_of_writes {d : Dialect} {t : SignalTable} {scope after : Scope}
    {is : List Instance} {body : List Line} (run : (scriptAll d t scope is).Writes body after) :
    ∃ blocks, List.Forall₂ (IsWhole d t) is blocks ∧ body = blocks.flatten := by
  obtain ⟨blocks, each, rfl⟩ :=
    Writes.blocks (fun _ => True) (fun _ _ _ _ _ _ => trivial) trivial run
  refine ⟨blocks, each.imp ?_, rfl⟩
  rintro i block ⟨before, next, -, written⟩
  obtain ⟨target, merged, bindings, w⟩ := writes_script.mp written
  exact ⟨before, target, merged, bindings, next, w⟩

theorem Module.whole_of_writes {d : Dialect} {scope after : Scope} {ms : List Module}
    {body : List Line} (run : (ms.foldlM (script d) scope).Writes body after) :
    ∃ blocks, List.Forall₂ (IsWhole d) ms blocks ∧ body = blocks.flatten := by
  obtain ⟨blocks, each, rfl⟩ :=
    Writes.blocks (fun _ => True) (fun _ _ _ _ _ _ => trivial) trivial run
  refine ⟨blocks, each.imp ?_, rfl⟩
  rintro m block ⟨before, next, -, written⟩
  obtain ⟨inner, name, t, opening, inside, w, rfl⟩ := writes_script.mp written
  exact ⟨before, inner, name, t, opening, inside, next, w, rfl⟩

/-! ### Blame -/

/-- A session that has just been opened knows nothing and has written nothing. -/
theorem Session.eq_of_opened {f : Format} {options : Options} {sink : Sink} {s : Session}
    (opened : Session.open? f options sink = .ok s) :
    s = { dialect := s.dialect, options, sink } := by
  unfold Session.open? at opened
  split at opened
  · exact Except.ok.inj opened ▸ rfl
  · cases opened

/-- A package that is refused, in a new session whose sink takes everything, is written up to what
its fault is blamed on. Without a place it is a fault of registration, and nothing is written.
Otherwise it names a module behind a header and whole definitions of all modules before it; of the
blamed module there are no more than opening lines, or its opening and all instances before one that
the fault names too. However deep a fault is nested, only its message tells the places, the
outermost first. -/
theorem package_fault_blames_where_text_ends {f : Format} {options : Options} {sink : Sink}
    {s : Session} {p : Package} {fault : Fault} (opened : Session.open? f options sink = .ok s)
    (unlimited : sink.Unlimited) (failed : (s.writePackage p).1 = .error fault) :
    (∃ lines, (s.writePackage p).2.sink.content
        = sink.content ++ (Session.shown 0 options lines).toUTF8 ∧
      ((lines = [] ∧ ∃ cause, p.externals.foldlM Scope.registered .empty = .error cause ∧
        fault = .plain cause) ∨
      ∃ done m rest blocks part scope, p.modules = done ++ m :: rest ∧
        List.Forall₂ (Module.IsWhole s.dialect) done blocks ∧
        lines = p.headerLines s.dialect options ++ blocks.flatten ++ part ∧
        scope.modules = done.reverse ∧
        ((∃ cause, m.Unopened s.dialect scope part cause ∧
          fault = .within (.moduleNamed m.name) (.plain cause)) ∨
        ∃ name t opening insides before i cause,
          m.StoppedAt s.dialect scope name t opening insides.flatten before i cause ∧
          List.Forall₂ (Instance.IsWhole s.dialect t) before insides ∧
          part = opening ++ insides.flatten ∧
          fault = .within (.moduleNamed m.name)
            (.within (.instanceNamed i.name) (.plain cause))))) ∧
    ∀ fault : Fault, fault = .ofPlaces fault.places fault.cause ∧
      fault.root = .plain fault.cause ∧ fault.kind = fault.root.kind ∧
      fault.isUnsupported = fault.root.isUnsupported ∧
      fault.message = String.join (fault.places.map fun
          | .moduleNamed name => s!"in module `{name}`: "
          | .instanceNamed name => s!"in instance `{name}`: ") ++ fault.root.message := by
  refine ⟨?_, fun fault => ⟨fault.ofPlaces_places.symm, fault.root_eq_plain, fault.kind_root.symm,
    fault.isUnsupported_root.symm, fault.message_eq⟩⟩
  obtain ⟨d, rfl⟩ : ∃ d, s = { dialect := d, options, sink } := ⟨_, Session.eq_of_opened opened⟩
  obtain ⟨ends, content⟩ := Session.run_of_unlimited (s := { dialect := d, options, sink })
    unlimited (p.script d options .empty)
  have stops := stops_of_result (ends.symm.trans failed)
  refine ⟨_, content, ?_⟩
  obtain ⟨none, unregistered⟩ | ⟨registered, done, m, rest, scope, front, part, known, split,
    before, atModule, lines⟩ := Package.stopped_of_stops stops
  · exact .inl ⟨none, unregistered⟩
  right
  have behind : scope.modules = done.reverse := by
    rw [Module.modules_of_writes before, (Scope.keeps_of_registered known).modules]
    exact List.append_nil _
  obtain ⟨blocks, whole, rfl⟩ := Module.whole_of_writes before
  refine ⟨done, m, rest, blocks, part, scope, split, whole, lines, behind, ?_⟩
  obtain unopened | ⟨name, t, opening, inside, front, i, cause, stopped, rfl, blamed⟩ :=
    Module.stopped_of_stops atModule
  · exact .inl unopened
  · right
    obtain ⟨inner, between, defined, written, refused⟩ := stopped.defined
    obtain ⟨insides, others, rfl⟩ := Instance.whole_of_writes written
    exact ⟨name, t, opening, insides, front, i, cause, stopped, others, rfl, blamed⟩

/-- An instance of the module with two ports that is connected. -/
def fullyConnected : Instance :=
  { name := "t1", reference := .internal "two",
    connections := [⟨"p", .signal "p"⟩, ⟨"n", .signal "n"⟩] }

/-- A module with that instance and one that has an open port. -/
def halfPair : Module :=
  { twoPorts with name := "pair", instances := [fullyConnected, halfConnected] }

/-- A package of the two modules. -/
def halfPackage : Package :=
  { domain := "demo", modules := [twoPorts, halfPair] }

/-- What stands behind the first of two is the second. -/
theorem eq_of_split_pair {α : Type} {a b x : α} {done rest : List α}
    (split : [a, b] = done ++ x :: rest) (other : x ≠ a) : done = [a] ∧ x = b := by
  match done, split with
  | [], split => exact absurd (List.cons.inj split).1.symm other
  | [_], split =>
      obtain ⟨rfl, behind⟩ := List.cons.inj split
      exact ⟨rfl, (List.cons.inj behind).1.symm⟩
  | _ :: _ :: more, split =>
      have lengths := congrArg List.length split
      simp only [List.length_cons, List.length_append, List.length_nil] at lengths
      omega

/-- The first module is there as a whole, and the second up to the open port. -/
theorem package_fault_blames_where_text_ends_open_port :
    ∃ s, Session.open? .ngspice {} {} = .ok s ∧
      (s.writePackage halfPackage).1
        = .error (.within (.moduleNamed "pair")
            (.within (.instanceNamed "t0") (.plain (.unconnectedPort "n")))) ∧
      ∃ t block opening inside, Module.IsWhole .ngspice twoPorts block ∧
        Instance.IsWhole .ngspice t fullyConnected inside ∧
        (s.writePackage halfPackage).2.sink.content
          = (Session.shown 0 {} (halfPackage.headerLines .ngspice {} ++ block
              ++ (opening ++ inside))).toUTF8 := by
  have opened : Session.open? .ngspice {} {} = .ok { dialect := .ngspice } := rfl
  have failed : (Session.writePackage { dialect := .ngspice } halfPackage).1
      = .error (.within (.moduleNamed "pair")
          (.within (.instanceNamed "t0") (.plain (.unconnectedPort "n")))) := rfl
  refine ⟨_, opened, failed, ?_⟩
  obtain ⟨⟨lines, content, unregistered | blamed⟩, -⟩ :=
    package_fault_blames_where_text_ends opened ⟨rfl, rfl⟩ failed
  · obtain ⟨-, cause, -, ⟨⟩⟩ := unregistered
  obtain ⟨done, m, rest, blocks, part, scope, split, whole, rfl, -, blamed⟩ := blamed
  obtain ⟨cause, -, same⟩ |
    ⟨name, t, opening, insides, before, i, cause, stopped, others, rfl, same⟩ := blamed
  · simp at same
  simp only [Fault.within.injEq, Place.moduleNamed.injEq, Place.instanceNamed.injEq] at same
  obtain ⟨named, namedInside, -⟩ := same
  obtain ⟨rfl, rfl⟩ := eq_of_split_pair split (by
    rintro rfl
    exact absurd named (by decide))
  obtain ⟨behind, instances⟩ := stopped.split
  obtain ⟨rfl, rfl⟩ := eq_of_split_pair instances (by
    rintro rfl
    exact absurd namedInside (by decide))
  obtain ⟨block, rfl, one⟩ :
      ∃ block, blocks = [block] ∧ Module.IsWhole .ngspice twoPorts block := by
    cases whole with
    | cons one none =>
        cases none
        exact ⟨_, rfl, one⟩
  obtain ⟨inside, rfl, first⟩ :
      ∃ inside, insides = [inside] ∧ Instance.IsWhole .ngspice t fullyConnected inside := by
    cases others with
    | cons first none =>
        cases none
        exact ⟨_, rfl, first⟩
  refine ⟨t, block, opening, inside, one, first, ?_⟩
  simpa using content

end CircuitNetlist
