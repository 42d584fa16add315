import CircuitNetlist.Proofs.BlamedPlaces
import CircuitNetlist.Proofs.ModuleBlocks
import CircuitNetlist.Proofs.ParameterOrder

/-!
# What is logged

The log of a written package tells of its external modules, of each module with its instances, and
last that the package has been written. In front of an instance stand warnings, one for each name
that is overridden and not declared by what the instance refers to. What a session logs is what its
script logs as far as it is played, and only the very last event of the script says that all is
done. So a write that fails, be it at the flush in front of that event, does not say so.
-/
namespace CircuitNetlist

open Script

namespace Action

/-- The action is not one of logging. -/
def IsMute (action : Action) : Prop :=
  ∀ record, action ≠ .log record

/-- The action does not say that all is done. -/
def IsUnfinished (action : Action) : Prop :=
  ∀ record, action = .log record → record.level ≠ .info

theorem IsMute.isUnfinished {action : Action} (mute : action.IsMute) : action.IsUnfinished :=
  fun record logs => absurd logs (mute record)

end Action

namespace Script
variable {α β σ κ : Type}

/-- The records that a script logs. -/
def records (m : Script α) : List LogRecord :=
  m.events.filterMap Event.record?

/-! ### What a script does at all -/

/-- All actions of the script are of this kind. -/
structure Acts (P : Action → Prop) (m : Script α) : Prop where
  all : ∀ event ∈ m.events, P event.action

namespace Acts
variable {P : Action → Prop}

theorem of_idle {m : Script α} (idle : m.events = []) : m.Acts P := by
  refine ⟨?_⟩
  rw [idle]
  exact List.forall_mem_nil _

theorem check (step : Except Cause α) : (check step).Acts P := by
  cases step with
  | error cause => exact of_idle rfl
  | ok a => exact of_idle rfl

theorem act {action : Action} (h : P action) : (act action).Acts P :=
  ⟨List.forall_mem_singleton.mpr h⟩

theorem use {step : Except Cause α × Scope} (h : P (.enter step.2)) : (use step).Acts P := by
  rcases step with ⟨cause | a, after⟩
  · exact ⟨List.forall_mem_singleton.mpr h⟩
  · exact ⟨List.forall_mem_singleton.mpr h⟩

theorem writeAll {lines : List Line} (h : ∀ line, P (.write line)) : (writeAll lines).Acts P := by
  refine ⟨?_⟩
  intro event mem
  obtain ⟨line, -, rfl⟩ := List.mem_map.mp mem
  exact h line

theorem imp {Q : Action → Prop} {m : Script α} (h : m.Acts P)
    (weaker : ∀ action, P action → Q action) : m.Acts Q :=
  ⟨fun event mem => weaker event.action (h.all event mem)⟩

theorem bind {m : Script α} {f : α → Script β} (h : m.Acts P) (rest : ∀ a, (f a).Acts P) :
    (m >>= f).Acts P := by
  refine ⟨?_⟩
  cases result : m.result with
  | error fault =>
      rw [bind_of_error result]
      exact h.all
  | ok a =>
      rw [bind_of_ok result, List.forall_mem_append]
      exact ⟨h.all, (rest a).all⟩

theorem within {m : Script α} (h : m.Acts P) (place : Place) : (m.within place).Acts P := by
  refine ⟨?_⟩
  intro event mem
  obtain ⟨inner, there, rfl⟩ := List.mem_map.mp mem
  exact h.all inner there

theorem foldlM {step : σ → κ → Script σ} (one : ∀ s x, (step s x).Acts P) (xs : List κ) (s : σ) :
    (xs.foldlM step s).Acts P := by
  induction xs generalizing s with
  | nil => exact of_idle rfl
  | cons x xs ih =>
      rw [List.foldlM_cons]
      exact (one s x).bind ih

end Acts

/-! ### What a script logs -/

theorem records_of_mute {m : Script α} (mute : m.Acts Action.IsMute) : m.records = [] := by
  rw [records, List.filterMap_eq_nil_iff]
  intro event mem
  have none := mute.all event mem
  obtain ⟨places, action⟩ := event
  cases action with
  | log record => exact absurd rfl (none record)
  | write line => rfl
  | enter scope => rfl
  | flush => rfl

theorem records_bind_of_ok {m : Script α} {a : α} (ok : m.result = .ok a) (f : α → Script β) :
    (m >>= f).records = m.records ++ (f a).records := by
  rw [bind_of_ok ok]
  exact List.filterMap_append

theorem records_within (place : Place) (m : Script α) : (m.within place).records = m.records :=
  List.filterMap_map

theorem records_check_bind {step : Except Cause α} {a : α} (ok : step = .ok a)
    (f : α → Script β) : (check step >>= f).records = (f a).records := by
  rw [ok]
  exact records_bind_of_ok rfl f

theorem records_use_bind {step : Except Cause α × Scope} {a : α} {after : Scope}
    (ok : step = (.ok a, after)) (f : α × Scope → Script β) :
    (use step >>= f).records = (f (a, after)).records := by
  rw [ok]
  exact records_bind_of_ok rfl f

theorem records_log_bind (level : LogLevel) (text : String) (f : Unit → Script β) :
    (log level text >>= f).records = ⟨level, text⟩ :: (f ()).records := rfl

theorem records_writeAll_bind (lines : List Line) (f : Unit → Script β) :
    (writeAll lines >>= f).records = (f ()).records := by
  have none : (writeAll lines).records = [] :=
    records_of_mute (Acts.writeAll fun _ _ => Action.noConfusion)
  rw [records_bind_of_ok rfl, none, List.nil_append]

/-- A run whose every step logs what belongs to its element logs all of that in order. -/
theorem records_foldlM {step : σ → κ → Script σ} {belonging : κ → List LogRecord}
    (keeps : σ → Prop) {xs : List κ}
    (one : ∀ s x after lines, x ∈ xs → keeps s → (step s x).Writes lines after →
      keeps after ∧ (step s x).records = belonging x)
    {s after : σ} {ls : List Line} (start : keeps s) (run : (xs.foldlM step s).Writes ls after) :
    keeps after ∧ (xs.foldlM step s).records = xs.flatMap belonging := by
  induction xs generalizing s ls with
  | nil =>
      obtain ⟨-, rfl⟩ := writes_pure.mp run
      exact ⟨start, rfl⟩
  | cons x xs ih =>
      obtain ⟨between, first, rest, here, later, -⟩ := writes_foldlM_cons.mp run
      obtain ⟨kept, logged⟩ := one s x between first List.mem_cons_self start here
      obtain ⟨last, others⟩ :=
        ih (fun s y after lines mem => one s y after lines (List.mem_cons_of_mem x mem)) kept later
      refine ⟨last, ?_⟩
      rw [List.foldlM_cons, records_bind_of_ok here.result, logged, others, List.flatMap_cons]

end Script

/-! ### What is done while a package is written -/

theorem Action.isMute_write (line : Line) : (Action.write line).IsMute :=
  fun _ => Action.noConfusion

theorem Action.isMute_enter (scope : Scope) : (Action.enter scope).IsMute :=
  fun _ => Action.noConfusion

theorem Action.isUnfinished_log {level : LogLevel} (other : level ≠ .info) (text : String) :
    (Action.log ⟨level, text⟩).IsUnfinished := by
  rintro record ⟨⟩
  exact other

theorem unfinished_use {α : Type} (step : Except Cause α × Scope) :
    (use step).Acts Action.IsUnfinished :=
  Acts.use (Action.isMute_enter step.2).isUnfinished

theorem mute_writeAll (lines : List Line) : (writeAll lines).Acts Action.IsMute :=
  Acts.writeAll Action.isMute_write

theorem mute_write (line : Line) : (write line).Acts Action.IsMute :=
  Acts.act (Action.isMute_write line)

/-- The opening of a module is checked and written, and nothing else. -/
theorem Module.mute_openingScript (d : Dialect) (m : Module) (name : String) (t : SignalTable) :
    (m.openingScript d name t).Acts Action.IsMute := by
  have opened : ∀ (head nodes gap : Line) (parameters : Except Cause Line),
      (write head >>= fun _ => write nodes >>= fun _ => check parameters >>= fun line =>
        write line >>= fun _ => write gap).Acts Action.IsMute := by
    intro head nodes gap parameters
    apply (mute_write head).bind
    intro _
    apply (mute_write nodes).bind
    intro _
    apply (Acts.check parameters).bind
    intro line
    apply (mute_write line).bind
    intro _
    exact mute_write gap
  unfold openingScript
  cases d.family with
  | spice => apply opened
  | spectre => apply opened
  | verilog =>
      apply (mute_write _).bind
      intro _
      apply (Acts.check _).bind
      intro parameters
      apply (mute_writeAll parameters).bind
      intro _
      apply (Acts.check _).bind
      intro ports
      apply (mute_writeAll ports).bind
      intro _
      apply (mute_write _).bind
      intro _
      apply (mute_writeAll _).bind
      intro _
      apply (mute_write _).bind
      intro _
      exact mute_write _

theorem unfinished_warnUndeclared (names : List String) :
    (warnUndeclared names).Acts Action.IsUnfinished := by
  induction names with
  | nil => exact Acts.of_idle rfl
  | cons name names ih =>
      have warned : (log .warn s!"passing through undeclared parameter `{name}`").Acts
          Action.IsUnfinished := Acts.act (Action.isUnfinished_log (by decide) _)
      exact warned.bind fun _ => ih

theorem Instance.unfinished_script (d : Dialect) (t : SignalTable) (scope : Scope) (i : Instance) :
    (i.script d t scope).Acts Action.IsUnfinished := by
  unfold Instance.script
  apply Acts.within
  apply (unfinished_use _).bind
  rintro ⟨target, after⟩
  apply (Acts.check _).bind
  intro params
  apply (unfinished_warnUndeclared params.undeclared).bind
  intro _
  apply (Acts.check _).bind
  intro bindings
  apply (Acts.act (Action.isUnfinished_log (by decide) _)).bind
  intro _
  apply (Acts.check _).bind
  intro lines
  apply ((mute_writeAll lines).imp fun _ => Action.IsMute.isUnfinished).bind
  intro _
  exact Acts.of_idle rfl

theorem Module.unfinished_script (d : Dialect) (scope : Scope) (m : Module) :
    (m.script d scope).Acts Action.IsUnfinished := by
  unfold Module.script
  apply Acts.within
  apply (unfinished_use _).bind
  rintro ⟨name, inner⟩
  apply (Acts.check _).bind
  intro t
  apply (Acts.act (Action.isUnfinished_log (by decide) _)).bind
  intro _
  rw [layout_eq]
  apply ((m.mute_openingScript d name t).imp fun _ => Action.IsMute.isUnfinished).bind
  intro _
  apply (Acts.foldlM (Instance.unfinished_script d t) m.instances inner).bind
  intro after
  apply ((mute_writeAll _).imp fun _ => Action.IsMute.isUnfinished).bind
  intro _
  exact Acts.of_idle rfl

theorem ExternalModule.unfinished_script (scope : Scope) (m : ExternalModule) :
    (m.script scope).Acts Action.IsUnfinished := by
  unfold ExternalModule.script
  apply (Acts.check _).bind
  intro _
  apply (Acts.act (Action.isUnfinished_log (by decide) _)).bind
  intro _
  apply (unfinished_use _).bind
  rintro ⟨_, after⟩
  exact Acts.of_idle rfl

/-- Up to its last module a package does not say that all is done. -/
theorem Package.unfinished_frontScript (p : Package) (d : Dialect) (options : Options)
    (scope : Scope) : (p.frontScript d options scope).Acts Action.IsUnfinished := by
  unfold frontScript
  apply (Acts.foldlM ExternalModule.unfinished_script p.externals scope).bind
  intro registered
  apply ((mute_writeAll _).imp fun _ => Action.IsMute.isUnfinished).bind
  intro _
  exact Acts.foldlM (Module.unfinished_script d) p.modules registered

/-! ### What the log tells -/

namespace Package

/-- The parameters that are declared by what a reference stands for in the package. -/
def declaredBy (p : Package) (reference : Reference) : List String :=
  match p.face reference with
  | .ok face => face.parameters.map (·.name)
  | .error _ => []

/-- The names that an instance overrides without a declaration, each once. -/
def undeclaredBy (p : Package) (i : Instance) : List String :=
  (i.parameters.map (·.name)).eraseDups.filter (· ∉ p.declaredBy i.reference)

def externalRecord (m : ExternalModule) : LogRecord :=
  ⟨.debug, s!"registering external module {m.name.text} ({m.kind.title})"⟩

def warningRecord (name : String) : LogRecord :=
  ⟨.warn, s!"passing through undeclared parameter `{name}`"⟩

def instanceRecord (i : Instance) : LogRecord :=
  ⟨.debug, s!"writing instance `{i.name}` of {i.reference.text}"⟩

def moduleRecord (m : Module) : LogRecord :=
  ⟨.debug, s!"writing module `{sanitize m.name}` with {m.instances.length} instances"⟩

def doneRecord (p : Package) (d : Dialect) : LogRecord :=
  ⟨.info, s!"wrote {p.modules.length} modules of package `{p.domain}` as {d.format.name}"⟩

/-- The log of an instance: its warnings, then the instance. -/
def instanceLog (p : Package) (i : Instance) : List LogRecord :=
  (p.undeclaredBy i).map warningRecord ++ [instanceRecord i]

/-- The log of a module: the module, then its instances. -/
def moduleLog (p : Package) (m : Module) : List LogRecord :=
  moduleRecord m :: m.instances.flatMap p.instanceLog

/-- The log of a package that is written: external modules, modules, and that all is done. -/
def writtenLog (p : Package) (d : Dialect) : List LogRecord :=
  p.externals.map externalRecord ++ p.modules.flatMap p.moduleLog ++ [p.doneRecord d]

end Package

/-! ### What a written package logs -/

theorem records_warnUndeclared_bind {β : Type} (names : List String) (f : Unit → Script β) :
    (warnUndeclared names >>= f).records = names.map Package.warningRecord ++ (f ()).records := by
  induction names with
  | nil => rfl
  | cons name names ih =>
      have one : warnUndeclared (name :: names)
          = log .warn s!"passing through undeclared parameter `{name}`"
            >>= fun _ => warnUndeclared names := rfl
      rw [one, bind_assoc, records_log_bind, ih]
      rfl

namespace Package
variable {p : Package} {d : Dialect} {s after : Scope}

theorem declaredBy_of_standsFor (clear : p.Unambiguous) {reference : Reference} {target : Resolved}
    (stands : StandsFor p.modules p.externals reference target) :
    p.declaredBy reference = target.parameters.map (·.name) := by
  rw [declaredBy, face_of_standsFor clear.modules clear.externals stands]
  cases target <;> rfl

theorem exists_of_mapM {ε α β : Type} {f : α → Except ε β} {xs : List α} {ys : List β}
    (all : xs.mapM f = .ok ys) {x : α} (mem : x ∈ xs) : ∃ y, f x = .ok y := by
  have both : List.Forall₂ (fun x y => (∃ y, f x = .ok y) ∧ f x = .ok y) xs ys :=
    (mapM_eq_ok.mp all).imp fun _ y here => ⟨⟨y, here⟩, here⟩
  exact ((List.forall₂_and_left _ _).mp both).1 x mem

/-- All that a written package refers to is in it. -/
theorem face_of_written {options : Options} (ok : (p.script d options .empty).result = .ok after)
    {m : Module} (mem : m ∈ p.modules) {i : Instance} (inside : i ∈ m.instances) :
    ∃ face, p.face i.reference = .ok face := by
  obtain ⟨blocks, all, -⟩ := lines_of_result ok
  obtain ⟨block, lines⟩ := exists_of_mapM all mem
  obtain ⟨faces, found, -⟩ := bind_eq_ok.mp lines
  exact exists_of_mapM found inside

theorem records_instance (clear : p.Unambiguous) (known : p.Knows s) {t : SignalTable}
    {i : Instance} {ls : List Line} (written : (i.script d t s).Writes ls after) :
    p.Knows after ∧ (i.script d t s).records = p.instanceLog i := by
  obtain ⟨target, merged, bindings, w⟩ := Instance.writes_script.mp written
  obtain ⟨stands, rfl⟩ := known.order.resolve_eq_ok.mp w.resolved
  have declared := declaredBy_of_standsFor clear (stands.mono known.modules known.externals)
  have undeclared := (names_of_resolveParams w.params).2
  rw [← declared] at undeclared
  refine ⟨known, ?_⟩
  unfold Instance.script
  rw [records_within, records_use_bind w.resolved, records_check_bind w.params,
    records_warnUndeclared_bind, records_check_bind w.bound, records_log_bind,
    records_check_bind w.lines, records_writeAll_bind, undeclared]
  rfl

theorem records_module (clear : p.Unambiguous) (known : p.Knows s) {m : Module}
    (mem : m ∈ p.modules) {ls : List Line} (written : (m.script d s).Writes ls after) :
    p.Knows after ∧ (m.script d s).records = p.moduleLog m := by
  obtain ⟨inner, name, t, opening, body, w, -⟩ := Module.writes_script.mp written
  have named : name = sanitize m.name := (Scope.define_eq_ok.mp w.defined).1
  have each : ∀ s i after ls, i ∈ m.instances → p.Knows s →
      (Instance.script d t s i).Writes ls after →
      p.Knows after ∧ (Instance.script d t s i).records = p.instanceLog i :=
    fun _ _ _ _ _ known written => records_instance clear known written
  obtain ⟨known', instances⟩ := records_foldlM p.Knows each (known.define mem w.defined) w.instances
  refine ⟨known', ?_⟩
  have opened : (m.openingScript d name t).Writes opening () := Module.writes_opening.mpr w.opened
  have silent := records_of_mute (m.mute_openingScript d name t)
  unfold Module.script
  rw [records_within, records_use_bind w.defined, records_check_bind w.table,
    records_log_bind, Module.layout_eq, records_bind_of_ok opened.result, silent, List.nil_append,
    records_bind_of_ok w.instances.result, records_writeAll_bind, Instance.scriptAll, instances,
    named]
  exact congrArg _ (List.append_nil _)

theorem records_external {m : ExternalModule} {ls : List Line}
    (written : (m.script s).Writes ls after) : (m.script s).records = [externalRecord m] := by
  unfold ExternalModule.script at written ⊢
  obtain ⟨fresh, checked, registering⟩ := writes_check_bind.mp written
  obtain ⟨_, next, added, -⟩ := writes_use_bind.mp (writes_log_bind.mp registering)
  rw [records_check_bind checked, records_log_bind, records_use_bind added]
  rfl

theorem records_script {options : Options} (ok : (p.script d options .empty).result = .ok after) :
    (p.script d options .empty).records = p.writtenLog d := by
  have clear := unambiguous_of_result ok
  obtain ⟨registered, body, externals, modules, -⟩ := writes_script.mp (writes_of_result ok)
  have registering := ExternalModule.writes_scripts.mpr ⟨rfl, externals⟩
  have external : ∀ s m after ls, m ∈ p.externals → True →
      (ExternalModule.script s m).Writes ls after →
      True ∧ (ExternalModule.script s m).records = [externalRecord m] :=
    fun _ _ _ _ _ _ written => ⟨trivial, records_external written⟩
  obtain ⟨-, first⟩ := records_foldlM (fun _ => True) external trivial registering
  have defined : ∀ s m after ls, m ∈ p.modules → p.Knows s → (Module.script d s m).Writes ls after →
      p.Knows after ∧ (Module.script d s m).records = p.moduleLog m :=
    fun _ _ _ _ mem known written => records_module clear known mem written
  have known := p.knows_empty.registered (fun _ mem => mem) externals
  obtain ⟨-, others⟩ := records_foldlM p.Knows defined known modules
  unfold Package.script
  rw [records_bind_of_ok registering.result, records_writeAll_bind,
    records_bind_of_ok modules.result, first, others, writtenLog, List.append_assoc,
    ← List.map_eq_flatMap]
  rfl

end Package

/-! ### What a session logs -/

namespace Session

theorem log_of_run {α : Type} {s : Session} {m : Script α} {a : α} (ok : (s.run m).1 = .ok a) :
    (s.run m).2.log = s.log ++ m.records := by
  rw [run_eq_ending, log_ending]
  exact log_play_of_accepted (accepted_of_run ok).1

/-- A call that fails logs what a first part of the script's events logs; it is all of them only
where the script itself ends in the fault. -/
theorem log_of_failed {α : Type} {s : Session} {m : Script α} {fault : Fault}
    (failed : (s.run m).1 = .error fault) :
    ∃ done, done <+: m.events ∧ (done = m.events → m.result = .error fault) ∧
      (s.run m).2.log = s.log ++ done.filterMap Event.record? := by
  rw [run_eq_ending] at failed ⊢
  rw [log_ending]
  cases played : s.play s.depth m.events with
  | mk after refused =>
      cases refused with
      | none =>
          have accepted : (s.play s.depth m.events).2 = none := by rw [played]
          have logged := log_play_of_accepted accepted
          rw [played] at logged failed
          refine ⟨m.events, List.prefix_rfl, fun _ => ?_, logged⟩
          cases result : m.result with
          | error own =>
              rw [result] at failed
              exact failed
          | ok a =>
              rw [result] at failed
              cases failed
      | some refusal =>
          obtain ⟨done, stop, rest, cause, split, accepted, performed, -⟩ := play_eq_refused played
          refine ⟨done, ⟨_, split.symm⟩, ?_, ?_⟩
          · intro all
            rw [all] at split
            simp at split
          · rw [log_perform_of_refused performed, log_play_of_accepted accepted]

end Session

/-- Only the last event of a package says that all is done, and a package that fails does not come
to it. -/
theorem Package.unfinished_of_part {p : Package} {d : Dialect} {options : Options} {scope : Scope}
    {done : List Event} {fault : Fault} (part : done <+: (p.script d options scope).events)
    (failed : done = (p.script d options scope).events →
      (p.script d options scope).result = .error fault) :
    ∀ event ∈ done, event.action.IsUnfinished := by
  have unfinished := p.unfinished_frontScript d options scope
  rw [script_eq] at part failed
  cases front : (p.frontScript d options scope).result with
  | error early =>
      rw [bind_of_error front] at part
      exact fun event mem => unfinished.all event (part.subset mem)
  | ok known =>
      have events : (p.frontScript d options scope >>= p.endScript d).events
          = (p.frontScript d options scope).events ++ [{ action := .flush }]
            ++ [{ action := .log (p.doneRecord d) }] := by
        rw [bind_of_ok front, List.append_assoc]
        rfl
      have good : (p.frontScript d options scope >>= p.endScript d).result = .ok known := by
        rw [bind_of_ok front]
        rfl
      rw [good] at failed
      rw [events] at part failed
      rcases List.prefix_concat_iff.mp part with all | before
      · cases failed all
      intro event mem
      rcases List.mem_append.mp (before.subset mem) with inside | flush
      · exact unfinished.all event inside
      · obtain rfl := List.mem_singleton.mp flush
        intro record logs
        cases logs

theorem Event.action_of_record? {event : Event} {record : LogRecord}
    (logs : event.record? = some record) : event.action = .log record := by
  obtain ⟨places, action⟩ := event
  cases action with
  | log other => exact congrArg _ (Option.some.inj logs)
  | write line => cases logs
  | enter scope => cases logs
  | flush => cases logs

/-- A package that is written by a new session leaves exactly its log: a record for each of its
external modules in order, one for each module, and behind it for each of the module's instances a
warning for every name that is overridden but not declared, then one for the instance; last a record
that all is done. What an instance refers to is in the package, so what is declared is settled. A
write that fails, for whatever reason, does not say that all is done. -/
theorem package_log_complete {f : Format} {options : Options} {sink : Sink} {s : Session}
    (opened : Session.open? f options sink = .ok s) (p : Package) :
    (∀ after, (s.writePackage p).1 = .ok after →
      (s.writePackage p).2.log = p.writtenLog s.dialect ∧
      ∀ m ∈ p.modules, ∀ i ∈ m.instances, ∃ face, p.face i.reference = .ok face) ∧
    ∀ fault, (s.writePackage p).1 = .error fault →
      ∀ record ∈ (s.writePackage p).2.log, record.level ≠ .info := by
  obtain ⟨d, rfl⟩ : ∃ d, s = { dialect := d, options, sink } := ⟨_, Session.eq_of_opened opened⟩
  refine ⟨?_, ?_⟩
  · intro after written
    have ok := (Session.accepted_of_run written).2
    refine ⟨?_, fun m mem i inside => Package.face_of_written ok mem inside⟩
    rw [Session.writePackage, Session.log_of_run written, Package.records_script ok]
    rfl
  · intro fault failed record mem
    obtain ⟨done, part, all, logged⟩ := Session.log_of_failed failed
    rw [Session.writePackage, logged] at mem
    obtain ⟨event, inside, logs⟩ := List.mem_filterMap.mp mem
    exact Package.unfinished_of_part part all event inside record (Event.action_of_record? logs)

/-- A resistor with overrides that are given twice, spelt wrong, or both. -/
def misspeltResistor : Instance :=
  { name := "r1", reference := .external ⟨Primitive.idealDomain, "resistor"⟩,
    connections := [⟨"p", .signal "p"⟩, ⟨"n", .signal "n"⟩],
    parameters := [.withValue "tc" (.int 1), .withValue "r" (.int 2), .withValue "R" (.int 3),
      .withValue "tc" (.int 4)] }

def misspeltPackage : Package :=
  { domain := "demo", externals := [inverterCell],
    modules := [{ twoPorts with instances := [misspeltResistor] }] }

/-- Two warnings for three such overrides, and nothing of a good end where the flush fails. -/
theorem package_log_complete_misspelt :
    ∃ s broken, Session.open? .xyce {} {} = .ok s ∧
      Session.open? .xyce {} { flushFails := true } = .ok broken ∧
      (s.writePackage misspeltPackage).2.log =
        [⟨.debug, "registering external module pdk.inv_1 (SUBCKT)"⟩,
          ⟨.debug, "writing module `two` with 1 instances"⟩,
          ⟨.warn, "passing through undeclared parameter `tc`"⟩,
          ⟨.warn, "passing through undeclared parameter `R`"⟩,
          ⟨.debug, "writing instance `r1` of vlsir.primitives.resistor"⟩,
          ⟨.info, "wrote 1 modules of package `demo` as xyce"⟩] ∧
      (broken.writePackage misspeltPackage).1 = .error (.plain (.output .flushFailed)) ∧
      ∀ record ∈ (broken.writePackage misspeltPackage).2.log, record.level ≠ .info := by
  have opened : Session.open? .xyce {} {} = .ok { dialect := .xyce } := rfl
  have opened' : Session.open? .xyce {} { flushFails := true }
      = .ok { dialect := .xyce, sink := { flushFails := true } } := rfl
  have written : (Session.writePackage { dialect := .xyce } misspeltPackage).1 = .ok _ := rfl
  have failed : (Session.writePackage { dialect := .xyce, sink := { flushFails := true } }
      misspeltPackage).1 = .error (.plain (.output .flushFailed)) := rfl
  refine ⟨_, _, opened, opened', ?_, failed, ?_⟩
  · rw [((package_log_complete opened misspeltPackage).1 _ written).1]
    rfl
  · exact (package_log_complete opened' misspeltPackage).2 _ failed

end CircuitNetlist
