import CircuitNetlist.Proofs.AcceptedRuns
import CircuitNetlist.Proofs.LineDepths

/-!
# Writing with a counter

A writer need not know how deep a line stands: it can keep the depth in a counter that it raises in
front of what is nested and lowers behind it, and write every line at the depth of the counter. A
call that fails leaves the counter as it is. Such a writer does to a session exactly what the script
of known depths does, refused lines and failed calls included, and it never lowers a counter that is
at zero.
-/
namespace CircuitNetlist

open Script

/-- A call that works on a session directly, with the depth as a counter. It has no outcome where a
counter at zero would have to be lowered. -/
def Counted (α : Type) : Type :=
  Session → Option (Except Fault α × Session)

namespace Counted
variable {α β : Type}

instance : Monad Counted where
  pure a := fun s => some (.ok a, s)
  bind m f := fun s =>
    match m s with
    | none => none
    | some (.error fault, s) => some (.error fault, s)
    | some (.ok a, s) => f a s

def raise : Counted Unit := fun s =>
  some (.ok (), { s with depth := s.depth + 1 })

def lower : Counted Unit := fun s =>
  match s.depth with
  | 0 => none
  | depth + 1 => some (.ok (), { s with depth })

/-- Performs an event. A line is written at the depth of the counter, whatever its own depth is. -/
def perform (e : Event) : Counted Unit := fun s =>
  let action := match e.action with
    | .write (.text _ content) => .write (.text 0 content)
    | .write (.blank _) => .write (.blank 0)
    | other => other
  match s.perform s.depth action with
  | (s, none) => some (.ok (), s)
  | (s, some refused) => some (.error (.ofPlaces e.places (.output refused)), s)

def finish (result : Except Fault α) : Counted α := fun s =>
  some (result, s)

/-- A script that leaves the counter alone. -/
def flat (m : Script α) : Counted α := do
  m.events.forM perform
  finish m.result

def writeln (content : String) : Counted Unit :=
  flat (write (.text 0 content))

def blank : Counted Unit :=
  flat (write (.blank 0))

/-- Lines one level deeper. -/
def deeper (contents : List String) : Counted Unit := do
  raise
  contents.forM writeln
  lower

def within (place : Place) (m : Counted α) : Counted α := fun s =>
  (m s).map fun ended => (ended.1.mapError (·.within place), ended.2)

end Counted

/-! ### The writers -/

section Writers
variable (d : Dialect)

/-- The name of what can be instantiated; nothing else has been written before. -/
def Verilog.targetCounted (target : Resolved) : Counted String :=
  match target with
  | .internal _ name | .external _ name => pure name
  | .primitive m => Counted.flat (fail (.unsupported d.format (.primitiveInstances m.name)))
  | .model _ name => Counted.flat (fail (.unsupported d.format (.modelInstances name)))

/-- A list in parentheses, one entry a line. -/
def Verilog.listCounted (opening : String) (entries : List String) (closing : String) :
    Counted Unit := do
  Counted.writeln opening
  Counted.deeper (commaLines entries)
  Counted.writeln closing

def Verilog.bindingsCounted (bindings : List PortBinding) : Counted Unit :=
  if bindings.isEmpty then Counted.writeln "( );"
  else listCounted "(" (bindings.map fun b => "." ++ b.port ++ "(" ++ b.text ++ ")") ");"

def Verilog.instanceCounted (i : Instance) (target : Resolved) (params : ParamTable)
    (bindings : List PortBinding) : Counted Unit := do
  let name ← targetCounted d target
  Counted.writeln name
  Counted.flat (write (overridesLine d params))
  Counted.writeln i.name
  bindingsCounted bindings
  Counted.blank

def Instance.layoutCounted (i : Instance) (target : Resolved) (params : ParamTable)
    (bindings : List PortBinding) : Counted Unit :=
  match d.family with
  | .verilog => Verilog.instanceCounted d i target params bindings
  | .spice | .spectre =>
    Counted.flat (check (instanceLines d i target params bindings) >>= writeAll)

/-- Writes one instance of a module. -/
def Instance.counted (signals : SignalTable) (scope : Scope) (i : Instance) : Counted Scope :=
  Counted.within (.instanceNamed i.name) do
    let (target, scope) ← Counted.flat (use (scope.resolve i.reference))
    let params ← Counted.flat (check (resolveParams d i.parameters target.parameters))
    Counted.flat (warnUndeclared params.undeclared)
    let bindings ← Counted.flat (check (bindPorts d signals target i.connections))
    Counted.flat (log .debug s!"writing instance `{i.name}` of {i.reference.text}")
    i.layoutCounted d target params.table bindings
    return scope

def Spectre.moduleCounted (m : Module) (name : String) (signals : SignalTable) (scope : Scope) :
    Counted Scope := do
  Counted.writeln ("subckt " ++ name)
  Counted.raise
  Counted.flat (write (continuationOr d 1 "No ports" (signals.portList d)))
  let line ← Counted.flat (check (parametersLine d m.parameters))
  Counted.flat (write line)
  Counted.blank
  let scope ← m.instances.foldlM (Instance.counted d signals) scope
  m.literals.forM Counted.writeln
  Counted.lower
  Counted.writeln ("ends " ++ name)
  Counted.blank
  return scope

def Verilog.parametersCounted (declared : List Param) : Counted Unit :=
  if declared.isEmpty then Counted.writeln (d.comment "No parameters")
  else do
    let entries ← Counted.flat (check (declared.mapM (parameterDeclaration d)))
    listCounted "#(" entries ")"

def Verilog.portsCounted (ports : List (Port × Signal)) : Counted Unit :=
  if ports.isEmpty then Counted.writeln "( ); // No ports"
  else do
    let entries ← Counted.flat (check (ports.mapM portDeclaration))
    listCounted "(" entries ");"

def Verilog.moduleCounted (m : Module) (name : String) (signals : SignalTable) (scope : Scope) :
    Counted Scope := do
  Counted.writeln ("module " ++ name)
  parametersCounted d m.parameters
  portsCounted signals.ports
  Counted.blank
  Counted.raise
  Counted.flat (writeAll (signalLines d signals.internal))
  Counted.blank
  Counted.flat (write (instancesLine d m.instances))
  let scope ← m.instances.foldlM (Instance.counted d signals) scope
  m.literals.forM Counted.writeln
  Counted.lower
  Counted.writeln ("endmodule // " ++ name)
  Counted.blank
  return scope

/-- Defines a module and writes it. -/
def Module.counted (scope : Scope) (m : Module) : Counted Scope :=
  Counted.within (.moduleNamed m.name) do
    let (name, scope) ← Counted.flat (use (scope.define m))
    let signals ← Counted.flat (check (SignalTable.ofModule m))
    Counted.flat (log .debug s!"writing module `{name}` with {m.instances.length} instances")
    match d.family with
    | .spice => Counted.flat (Spice.moduleScript d m name signals scope)
    | .spectre => Spectre.moduleCounted d m name signals scope
    | .verilog => Verilog.moduleCounted d m name signals scope

variable (options : Options) (scope : Scope)

def Package.counted (p : Package) : Counted Scope := do
  let scope ← Counted.flat (p.externals.foldlM ExternalModule.script scope)
  Counted.flat (writeAll (p.headerLines d options))
  let scope ← p.modules.foldlM (Module.counted d) scope
  Counted.flat flush
  Counted.flat (log .info
    s!"wrote {p.modules.length} modules of package `{p.domain}` as {d.format.name}")
  return scope

/-- Writes a deck; only the package in it has something nested. -/
def SimulationInput.counted (s : SimulationInput) : Counted Scope := do
  let top ← Counted.flat (check (s.usableTop d))
  Counted.flat (writeAll (s.headerLines d))
  let scope ← s.package.counted d options scope
  Counted.flat (s.restScript d top)
  return scope

def Request.counted : Request → Counted Unit
  | .package p => do let _ ← p.counted d options scope
  | .definition m => do let _ ← m.counted d scope
  | .deck input => do let _ ← input.counted d options scope
  | .card c => Counted.flat (c.script d)
  | .analysis a => Counted.flat (a.script d)

end Writers

/-! ### Counters and known depths -/

/-- The call does what the script does, for any depth `base` that the script starts from. In front
of it the counter stands `n` deeper than that and the last line `w`; behind a good end they stand
`n'` and `w'` deeper. Where the call fails, the counter stands where the last line does. -/
def Counted.Draws {α : Type} (m : Counted α) (n w : Nat) (script : Script α) (n' w' : Nat) : Prop :=
  ∀ (base : Nat) (s : Session),
    let played := { s with depth := base + w }.play base script.events
    m { s with depth := base + n }
        = some (Session.ending (base + n') script.result played.1 played.2)
      ∧ (∀ a, script.result = .ok a → played.2 = none → played.1.depth = base + w')

/-- A run at one more place is the same run; a refusal is met at that place too. -/
theorem Session.play_within {α : Type} (base : Nat) (s : Session) (place : Place)
    (script : Script α) :
    s.play base (script.within place).events =
      ((s.play base script.events).1, (s.play base script.events).2.map (·.within place)) := by
  change s.play base (script.events.map fun event => { event with places := place :: event.places })
    = _
  generalize script.events = events
  induction events generalizing s with
  | nil => rfl
  | cons e events ih =>
      rw [List.map_cons, play, play]
      cases s.perform base e.action with
      | mk next refused =>
          cases refused with
          | some refusal => rfl
          | none => exact ih next

namespace Counted
variable {α β : Type} {n w n' w' n'' w'' : Nat}

theorem apply_bind_of_error {m : Counted α} {s after : Session} {fault : Fault}
    (h : m s = some (.error fault, after)) (f : α → Counted β) :
    (m >>= f) s = some (.error fault, after) := by
  simp only [Bind.bind, h]

theorem apply_bind_of_ok {m : Counted α} {s after : Session} {a : α}
    (h : m s = some (.ok a, after)) (f : α → Counted β) : (m >>= f) s = f a after := by
  simp only [Bind.bind, h]

namespace Draws

theorem bind {m : Counted α} {f : α → Counted β} {script : Script α} {rest : α → Script β}
    (h : m.Draws n w script n' w')
    (next : ∀ a, script.result = .ok a → (f a).Draws n' w' (rest a) n'' w'') :
    (m >>= f).Draws n w (script >>= rest) n'' w'' := by
  intro base s
  obtain ⟨first, depth⟩ := h base s
  cases result : script.result with
  | error fault =>
      rw [bind_of_error result]
      rw [result] at first
      cases played : { s with depth := base + w }.play base script.events with
      | mk after refused =>
          rw [played] at first
          cases refused with
          | some other => exact ⟨apply_bind_of_error first f, by simp⟩
          | none => exact ⟨apply_bind_of_error first f, by simp⟩
  | ok a =>
      rw [bind_of_ok result]
      rw [result] at first
      simp only [Session.play_append]
      cases played : { s with depth := base + w }.play base script.events with
      | mk after refused =>
          rw [played] at first depth
          cases refused with
          | some fault => exact ⟨apply_bind_of_error first f, by simp⟩
          | none =>
              have here : after.depth = base + w' := depth a result rfl
              have same : { after with depth := base + w' } = after := by rw [← here]
              have later := next a result base after
              rw [same] at later
              exact ⟨(apply_bind_of_ok first f).trans later.1, later.2⟩

theorem pure (a : α) : (Pure.pure a : Counted α).Draws n w (Pure.pure a) n w := by
  intro base s
  exact ⟨rfl, fun _ _ _ => rfl⟩

theorem raise : Counted.raise.Draws n w (Pure.pure ()) (n + 1) w := by
  intro base s
  exact ⟨rfl, fun _ _ _ => rfl⟩

theorem lower : Counted.lower.Draws (n + 1) w (Pure.pure ()) n w := by
  intro base s
  exact ⟨rfl, fun _ _ _ => rfl⟩

/-- A line that is as deep as the counter, wherever the line before stood. -/
theorem perform_write (places : List Place) {line : Line} (level : line.depth = n) :
    (perform ⟨places, .write line⟩).Draws n w ⟨[⟨places, .write line⟩], .ok ()⟩ n n := by
  subst level
  intro base s
  cases line with
  | text depth content =>
      simp only [perform, Session.play, Session.perform, Line.shift, Line.depth, Nat.add_zero]
      cases s.sink.write ((Line.text (base + depth) content).render s.options.indent) with
      | mk sink refused => cases refused <;> exact ⟨rfl, by simp⟩
  | blank depth =>
      simp only [perform, Session.play, Session.perform, Line.shift, Line.depth, Nat.add_zero]
      cases s.sink.write ((Line.blank (base + depth)).render s.options.indent) with
      | mk sink refused => cases refused <;> exact ⟨rfl, by simp⟩

/-- An event that, if it writes, writes a line that is as deep as the counter. -/
theorem perform {e : Event} (level : ∀ line, e.action = .write line → line.depth = n) :
    (perform e).Draws n n ⟨[e], .ok ()⟩ n n := by
  obtain ⟨places, action⟩ := e
  cases action with
  | write line => exact perform_write places (level line rfl)
  | log record =>
      intro base s
      exact ⟨rfl, fun _ _ _ => rfl⟩
  | enter scope =>
      intro base s
      exact ⟨rfl, fun _ _ _ => rfl⟩
  | flush =>
      intro base s
      simp only [Counted.perform, Session.play, Session.perform]
      cases s.sink.flush <;> exact ⟨rfl, by simp⟩

theorem finish (result : Except Fault α) : (Counted.finish result).Draws n n ⟨[], result⟩ n n := by
  intro base s
  cases result with
  | error fault => exact ⟨rfl, by simp⟩
  | ok a => exact ⟨rfl, fun _ _ _ => rfl⟩

theorem forM_perform {events : List Event}
    (level : ∀ e ∈ events, ∀ line, e.action = .write line → line.depth = n) :
    (events.forM Counted.perform).Draws n n ⟨events, .ok ()⟩ n n := by
  induction events with
  | nil => exact pure ()
  | cons e events ih =>
      rw [List.forall_mem_cons] at level
      have rest := ih level.2
      exact (perform level.1).bind fun _ _ => rest

/-- A script whose lines are all as deep as the counter. -/
theorem flat {script : Script α} (level : ∀ line ∈ script.lines, line.depth = n) :
    (Counted.flat script).Draws n n script n n := by
  have events : ∀ e ∈ script.events, ∀ line, e.action = .write line → line.depth = n := by
    intro e mem line written
    exact level line (List.mem_filterMap.mpr ⟨e, mem, by rw [written]⟩)
  have parts : (⟨script.events, .ok ()⟩ >>= fun _ : Unit => ⟨[], script.result⟩) = script := by
    rw [bind_of_ok rfl, List.append_nil]
  have last := finish (n := n) script.result
  have run := (forM_perform events).bind fun _ _ => last
  rw [parts] at run
  exact run

/-- Some lines may be written without regard to the line before. -/
theorem flat_writeAll {ls : List Line} (some : ls ≠ []) (level : ∀ line ∈ ls, line.depth = n) :
    (Counted.flat (writeAll ls)).Draws n w (writeAll ls) n n := by
  cases ls with
  | nil => exact absurd rfl some
  | cons line ls =>
      rw [List.forall_mem_cons] at level
      have events : ∀ e ∈ (writeAll ls).events, ∀ l, e.action = .write l → l.depth = n := by
        intro e mem l written
        obtain ⟨l', mem', rfl⟩ := List.mem_map.mp mem
        obtain rfl := Action.write.inj written
        exact level.2 l' mem'
      have last : (Counted.finish (.ok ())).Draws n n (Pure.pure ()) n n := finish (.ok ())
      have first := perform_write (w := w) [] level.1
      have run := (first.bind fun _ _ => forM_perform events).bind fun _ _ => last
      rw [bind_pure_unit] at run
      exact run

theorem flat_write (line : Line) (level : line.depth = n) :
    (Counted.flat (write line)).Draws n w (write line) n n :=
  flat_writeAll (List.cons_ne_nil line []) (List.forall_mem_singleton.mpr level)

theorem writeln (content : String) :
    (Counted.writeln content).Draws n w (write (.text n content)) n n :=
  flat_write (.text n content) rfl

theorem blank : Counted.blank.Draws n w (write (.blank n)) n n :=
  flat_write (.blank n) rfl

theorem forM_writeln (contents : List String) :
    (contents.forM Counted.writeln).Draws n n (writeAll (contents.map (.text n))) n n := by
  induction contents with
  | nil => exact pure ()
  | cons content contents ih =>
      exact (writeln content).bind fun _ _ => ih

/-- The counter stands as before behind lines that are one level deeper. -/
theorem deeper {contents : List String} (some : contents ≠ []) :
    (Counted.deeper contents).Draws n w (writeAll (contents.map (.text (n + 1)))) n (n + 1) := by
  cases contents with
  | nil => exact absurd rfl some
  | cons content contents =>
      have lines : writeAll ((content :: contents).map (.text (n + 1)))
          = (Pure.pure () : Script Unit) >>= fun _ =>
            (write (.text (n + 1) content) >>= fun _ =>
              writeAll (contents.map (.text (n + 1)))) >>= fun _ => Pure.pure () := by
        rw [pure_bind, bind_pure_unit]
        rfl
      rw [lines]
      apply raise.bind
      intro _ _
      have written := (writeln (w := w) content).bind fun _ _ => forM_writeln (n := n + 1) contents
      apply written.bind
      intro _ _
      exact lower

theorem foldlM {κ σ : Type} {step : σ → κ → Counted σ} {script : σ → κ → Script σ}
    (one : ∀ s x, (step s x).Draws n n (script s x) n n) (xs : List κ) (s : σ) :
    (xs.foldlM step s).Draws n n (xs.foldlM script s) n n := by
  induction xs generalizing s with
  | nil => exact pure s
  | cons x xs ih =>
      rw [List.foldlM_cons, List.foldlM_cons]
      apply (one s x).bind
      intro next _
      exact ih next

theorem within {m : Counted α} {script : Script α} (h : m.Draws n w script n' w') (place : Place) :
    (m.within place).Draws n w (script.within place) n' w' := by
  intro base s
  obtain ⟨same, depth⟩ := h base s
  rw [Session.play_within]
  cases played : { s with depth := base + w }.play base script.events with
  | mk after refused =>
      rw [played] at same depth
      refine ⟨?_, ?_⟩
      · change (m _).map _ = some (Session.ending _ (script.result.mapError _) _ _)
        rw [same]
        cases refused with
        | some fault => rfl
        | none => cases script.result <;> rfl
      · intro a ok accepted
        change script.result.mapError _ = .ok a at ok
        cases result : script.result with
        | error fault =>
            rw [result] at ok
            cases ok
        | ok b =>
            apply depth b result
            cases refused with
            | some fault => cases accepted
            | none => rfl

/-- Steps without lines. -/
theorem check_bind {step : Except Cause α} {f : α → Counted β} {rest : α → Script β}
    (next : ∀ a, step = .ok a → (f a).Draws n n (rest a) n' w') :
    (Counted.flat (check step) >>= f).Draws n n (check step >>= rest) n' w' := by
  apply (flat (by simp [lines_check])).bind
  intro a ok
  exact next a (writes_check.mp (writes_of_result ok)).2

theorem silent_bind {script : Script α} {f : α → Counted β} {rest : α → Script β}
    (silent : script.lines = []) (next : ∀ a, (f a).Draws n n (rest a) n' w') :
    (Counted.flat script >>= f).Draws n n (script >>= rest) n' w' := by
  apply (flat (by simp [silent])).bind
  intro a _
  exact next a

/-- The script knows nothing of the counter. -/
theorem raise_bind {f : Unit → Counted β} {script : Script β}
    (next : (f ()).Draws (n + 1) w script n' w') :
    (Counted.raise >>= f).Draws n w script n' w' :=
  raise.bind fun _ _ => next

/-- A call that does two things of the script at once. -/
theorem bind_both {γ : Type} {m : Counted α} {first : Script γ} {second : γ → Script α}
    {f : α → Counted β} {rest : α → Script β} (h : m.Draws n w (first >>= second) n' w')
    (next : ∀ a, (f a).Draws n' w' (rest a) n'' w'') :
    (m >>= f).Draws n w (first >>= fun c => second c >>= rest) n'' w'' := by
  rw [← bind_assoc]
  exact h.bind fun a _ => next a

/-- The last lines of a module. -/
theorem close (content : String) (a : α) :
    (Counted.writeln content >>= fun _ => Counted.blank >>= fun _ => Pure.pure a).Draws n w
      (writeAll [.text n content, .blank n] >>= fun _ => Pure.pure a) n n := by
  have both : writeAll [.text n content, .blank n]
      = Script.write (.text n content) >>= fun _ => Script.write (.blank n) := rfl
  rw [both, bind_assoc]
  apply (writeln content).bind
  intro _ _
  apply blank.bind
  intro _ _
  exact pure a

theorem lower_bind {f : Unit → Counted β} {script : Script β}
    (next : (f ()).Draws n w script n' w') :
    (Counted.lower >>= f).Draws (n + 1) w script n' w' :=
  lower.bind fun _ _ => next

end Draws
end Counted

/-! ### The writers and their scripts -/

open Counted

theorem ne_nil_of_mapM {α β : Type} {step : α → Except Cause β} {xs : List α} {ys : List β}
    (some : ¬ xs.isEmpty) (h : xs.mapM step = .ok ys) : ys ≠ [] := by
  have lengths := (mapM_eq_ok.mp h).length_eq
  rintro rfl
  cases xs with
  | nil => exact some rfl
  | cons x xs => cases lengths

theorem check_bind_eq {α β : Type} (step : Except Cause α) (f : α → Except Cause β) :
    check (step >>= f) = check step >>= fun a => check (f a) := by
  cases step with
  | error cause => rfl
  | ok a =>
      change check (f a) = pure a >>= fun a => check (f a)
      rw [pure_bind]

section Writers
variable (d : Dialect) {n w : Nat}

namespace Verilog

theorem draws_list (opening closing : String) {entries : List String} (some : entries ≠ []) :
    (listCounted opening entries closing).Draws n w
      (writeAll ([.text n opening] ++ (commaLines entries).map (.text (n + 1))
        ++ [.text n closing]))
      n n := by
  have lines : commaLines entries ≠ [] := by
    intro none
    have length := length_commaLines entries
    rw [none] at length
    exact some (List.eq_nil_of_length_eq_zero length.symm)
  rw [writeAll_append, writeAll_append, bind_assoc]
  apply (Draws.writeln opening).bind
  intro _ _
  apply (Draws.deeper lines).bind
  intro _ _
  exact Draws.writeln closing

theorem draws_bindings (bindings : List PortBinding) :
    (bindingsCounted bindings).Draws 1 1 (writeAll (bindingLines bindings)) 1 1 := by
  unfold bindingsCounted bindingLines
  by_cases none : bindings.isEmpty
  · rw [if_pos none, if_pos none]
    exact Draws.writeln _
  · rw [if_neg none, if_neg none]
    apply draws_list
    intro empty
    rw [List.map_eq_nil_iff] at empty
    exact none (List.isEmpty_iff.mpr empty)

/-- An instance is refused in front of its first line or written as a whole. -/
theorem draws_instance (i : Instance) (target : Resolved) (params : ParamTable)
    (bindings : List PortBinding) :
    (instanceCounted d i target params bindings).Draws 1 1
      (check (instanceLines d i target params bindings) >>= writeAll) 1 1 := by
  have written : ∀ name, (Counted.writeln name >>= fun _ =>
        Counted.flat (write (overridesLine d params)) >>= fun _ =>
        Counted.writeln i.name >>= fun _ =>
        bindingsCounted bindings >>= fun _ => Counted.blank).Draws 1 1
      (writeAll ([.text 1 name, overridesLine d params, .text 1 i.name] ++ bindingLines bindings
        ++ [.blank 1])) 1 1 := by
    intro name
    have head : writeAll [.text 1 name, overridesLine d params, .text 1 i.name]
        = write (.text 1 name) >>= fun _ => write (overridesLine d params) >>= fun _ =>
          write (.text 1 i.name) := rfl
    rw [writeAll_append, writeAll_append, head, bind_assoc, bind_assoc, bind_assoc]
    apply (Draws.writeln name).bind
    intro _ _
    apply (Draws.flat_write _ (depth_overridesLine d params)).bind
    intro _ _
    apply (Draws.writeln i.name).bind
    intro _ _
    apply (draws_bindings bindings).bind
    intro _ _
    exact Draws.blank
  cases target with
  | internal _ name => exact written name
  | external _ name => exact written name
  | model _ name =>
      exact Draws.silent_bind rfl written
  | primitive m =>
      exact Draws.silent_bind rfl written

theorem draws_parameters (declared : List Param) :
    (parametersCounted d declared).Draws 0 0 (check (parameterLines d declared) >>= writeAll)
      0 0 := by
  unfold parametersCounted parameterLines
  by_cases none : declared.isEmpty
  · rw [if_pos none, if_pos none]
    exact Draws.writeln _
  · rw [if_neg none, if_neg none, check_bind_eq, bind_assoc]
    apply Draws.check_bind
    intro entries made
    exact draws_list "#(" ")" (ne_nil_of_mapM none made)

theorem draws_ports (ports : List (Port × Signal)) :
    (portsCounted ports).Draws 0 0 (check (portLines ports) >>= writeAll) 0 0 := by
  unfold portsCounted portLines
  by_cases none : ports.isEmpty
  · rw [if_pos none, if_pos none]
    exact Draws.writeln _
  · rw [if_neg none, if_neg none, check_bind_eq, bind_assoc]
    apply Draws.check_bind
    intro entries made
    exact draws_list "(" ");" (ne_nil_of_mapM none made)

end Verilog

theorem Instance.draws_layout (i : Instance) (target : Resolved) (params : ParamTable)
    (bindings : List PortBinding) :
    (i.layoutCounted d target params bindings).Draws d.family.body d.family.body
      (check (instanceLines d i target params bindings) >>= writeAll) d.family.body
      d.family.body := by
  have level : ∀ {depth : Nat}, (∀ ls, instanceLines d i target params bindings = .ok ls →
      ∀ line ∈ ls, line.depth = depth) →
      (check (instanceLines d i target params bindings) >>= writeAll).Only (·.depth = depth) := by
    intro depth lines
    apply Only.check_bind
    intro ls laid
    exact Only.writeAll (lines ls laid)
  unfold layoutCounted
  cases family : d.family with
  | spice =>
      apply Draws.flat
      apply (level _).all
      intro ls laid
      rw [instanceLines, family] at laid
      exact Spice.depth_of_instanceLines laid
  | spectre =>
      apply Draws.flat
      apply (level _).all
      intro ls laid
      rw [instanceLines, family] at laid
      exact Spectre.depth_of_instanceLines laid
  | verilog =>
      simp only [instanceLines, family]
      exact Verilog.draws_instance d i target params bindings

theorem Instance.draws_counted (t : SignalTable) (scope : Scope) (i : Instance) :
    (i.counted d t scope).Draws d.family.body d.family.body (i.script d t scope) d.family.body
      d.family.body := by
  apply Draws.within
  apply Draws.silent_bind (lines_use _)
  rintro ⟨target, next⟩
  apply Draws.check_bind
  intro params _
  apply Draws.silent_bind (lines_warnUndeclared _)
  intro _
  apply Draws.check_bind
  intro bindings _
  apply Draws.silent_bind rfl
  intro _
  have laid := (i.draws_layout d target params.table bindings).bind fun _ _ =>
    Draws.pure (n := d.family.body) (w := d.family.body) next
  rw [bind_assoc] at laid
  exact laid

theorem Instance.draws_all (t : SignalTable) (scope : Scope) (is : List Instance) :
    (is.foldlM (Instance.counted d t) scope).Draws d.family.body d.family.body
      (Instance.scriptAll d t scope is) d.family.body d.family.body :=
  Draws.foldlM (Instance.draws_counted d t) is scope

theorem Spectre.draws_module (family : d.family = .spectre) (m : Module) (name : String)
    (t : SignalTable) (scope : Scope) :
    (moduleCounted d m name t scope).Draws 0 0 (moduleScript d m name t scope) 0 0 := by
  have instances := Instance.draws_all d t scope m.instances
  rw [family] at instances
  apply (Draws.writeln _).bind
  intro _ _
  apply Draws.raise_bind
  apply (Draws.flat_write _ (depth_continuationOr d 1 _ _)).bind
  intro _ _
  apply Draws.check_bind
  intro line laid
  apply (Draws.flat_write _ (depth_of_parametersLine laid)).bind
  intro _ _
  apply Draws.blank.bind
  intro _ _
  apply instances.bind
  intro after _
  apply (Draws.forM_writeln m.literals).bind
  intro _ _
  apply Draws.lower_bind
  exact Draws.close _ after

theorem Verilog.draws_module (family : d.family = .verilog) (m : Module) (name : String)
    (t : SignalTable) (scope : Scope) :
    (moduleCounted d m name t scope).Draws 0 0 (moduleScript d m name t scope) 0 0 := by
  have instances := Instance.draws_all d t scope m.instances
  rw [family] at instances
  apply (Draws.writeln _).bind
  intro _ _
  apply (draws_parameters d m.parameters).bind_both
  intro _
  apply (draws_ports t.ports).bind_both
  intro _
  apply Draws.blank.bind
  intro _ _
  apply Draws.raise_bind
  have signals : signalLines d t.internal ≠ [] := by
    unfold signalLines
    by_cases none : t.internal.isEmpty
    · simp [none]
    · simp [none]
  apply (Draws.flat_writeAll signals depth_of_signalLines).bind
  intro _ _
  apply Draws.blank.bind
  intro _ _
  apply (Draws.flat_write (instancesLine d m.instances) rfl).bind
  intro _ _
  apply instances.bind
  intro after _
  apply (Draws.forM_writeln m.literals).bind
  intro _ _
  apply Draws.lower_bind
  exact Draws.close _ after

theorem Module.draws_counted (scope : Scope) (m : Module) :
    (m.counted d scope).Draws 0 0 (m.script d scope) 0 0 := by
  apply Draws.within
  apply Draws.silent_bind (lines_use _)
  rintro ⟨name, inner⟩
  apply Draws.check_bind
  intro t _
  apply Draws.silent_bind rfl
  intro _
  have level := m.only_layout d name t inner
  unfold layout at level ⊢
  cases family : d.family with
  | spice =>
      rw [family] at level
      apply Draws.flat
      intro line mem
      exact Nat.le_zero.mp (level.all line mem)
  | spectre => exact Spectre.draws_module d family m name t inner
  | verilog => exact Verilog.draws_module d family m name t inner

theorem Package.draws_counted (options : Options) (scope : Scope) (p : Package) :
    (p.counted d options scope).Draws 0 0 (p.script d options scope) 0 0 := by
  apply Draws.silent_bind (lines_registration _ _)
  intro registered
  have header : ∀ line ∈ (writeAll (p.headerLines d options)).lines, line.depth = 0 := by
    rw [lines_writeAll]
    exact p.depth_of_headerLines d options
  apply (Draws.flat header).bind
  intro _ _
  apply (Draws.foldlM (Module.draws_counted d) p.modules registered).bind
  intro after _
  apply Draws.silent_bind rfl
  intro _
  apply Draws.silent_bind rfl
  intro _
  exact Draws.pure after

theorem SimulationInput.draws_counted (options : Options) (scope : Scope) (s : SimulationInput) :
    (s.counted d options scope).Draws 0 0 (s.script d options scope) 0 0 := by
  rw [script_eq_rest]
  apply Draws.check_bind
  intro top _
  have header : ∀ line ∈ (writeAll (s.headerLines d)).lines, line.depth = 0 := by
    rw [lines_writeAll]
    exact s.depth_of_headerLines d
  apply (Draws.flat header).bind
  intro _ _
  apply (s.package.draws_counted d options scope).bind
  intro after _
  apply (Draws.flat (s.only_restScript d top).all).bind
  intro _ _
  exact Draws.pure after

/-- The value of a script is of no account to its events. -/
theorem forget_eq {α : Type} (m : Script α) : m.forget = m >>= fun _ => pure () := by
  cases result : m.result with
  | error fault =>
      rw [bind_of_error result, Script.forget, result]
      rfl
  | ok a =>
      rw [bind_of_ok result, Script.forget, result]
      simp [Except.map]

theorem Request.draws_counted (options : Options) (scope : Scope) (r : Request) :
    (r.counted d options scope).Draws 0 0 (r.script d options scope) 0 0 := by
  cases r with
  | package p =>
      rw [Request.script, forget_eq]
      exact (p.draws_counted d options scope).bind fun _ _ => Draws.pure ()
  | definition m =>
      rw [Request.script, forget_eq]
      exact (m.draws_counted d scope).bind fun _ _ => Draws.pure ()
  | deck input =>
      rw [Request.script, forget_eq]
      exact (input.draws_counted d options scope).bind fun _ _ => Draws.pure ()
  | card c => exact Draws.flat (only_writeTexts (c.texts d)).all
  | analysis a => exact Draws.flat (only_writeTexts (a.texts d)).all

end Writers

/-- Whatever a session is asked and whatever its sink refuses, the answer is the one of a writer
that keeps the depth in a counter; such a writer always has one. -/
theorem Session.counted_eq_answer (s : Session) (r : Request) :
    r.counted s.dialect s.options s.scope s = some (s.answer r) := by
  rw [answer_eq_run, run_eq_ending]
  exact (r.draws_counted s.dialect s.options s.scope s.depth s).1

end CircuitNetlist
