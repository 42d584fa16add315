import CircuitNetlist.Proofs.AcceptedRuns
import CircuitNetlist.Proofs.ConnectionFaults
import CircuitNetlist.Proofs.WrittenNetlists

/-!
# The order of connections

Packages that differ in the order of the connections of their instances are written alike. Their
scripts run in step: the scopes differ in what their modules' instances look like, which decides
nothing, and the connections of an instance bind the same in both orders or fail in both with faults
of one kind, before the instance has written a line.
-/
namespace CircuitNetlist

open Script

/-! ### Reordered circuits -/

/-- The same instance, its connections in another order. -/
structure Instance.Reorders (i j : Instance) : Prop where
  connections : i.connections.Perm j.connections
  others : j = { i with connections := j.connections }

/-- The same module, with reordered instances in their places. -/
structure Module.Reorders (m n : Module) : Prop where
  instances : List.Forall₂ Instance.Reorders m.instances n.instances
  others : n = { m with instances := n.instances }

structure Package.Reorders (p q : Package) : Prop where
  modules : List.Forall₂ Module.Reorders p.modules q.modules
  others : q = { p with modules := q.modules }

structure Scope.Reorders (s s' : Scope) : Prop where
  modules : List.Forall₂ Module.Reorders s.modules s'.modules
  others : s' = { s with modules := s'.modules }

/-- What stands for one reference in two such scopes. -/
inductive Resolved.Reorders : Resolved → Resolved → Prop
  | internal {m n : Module} {name : String} : m.Reorders n →
      Reorders (.internal m name) (.internal n name)
  | refl (r : Resolved) : Reorders r r

theorem Instance.Reorders.refl (i : Instance) : i.Reorders i :=
  ⟨List.Perm.refl _, rfl⟩

theorem Module.Reorders.refl (m : Module) : m.Reorders m :=
  ⟨List.forall₂_same.mpr fun i _ => .refl i, rfl⟩

theorem Scope.Reorders.refl (s : Scope) : s.Reorders s :=
  ⟨List.forall₂_same.mpr fun m _ => .refl m, rfl⟩

theorem Module.Reorders.name {m n : Module} (h : m.Reorders n) : n.name = m.name := by
  rw [h.others]

namespace Resolved.Reorders
variable {r r' : Resolved}

theorem ports (h : r.Reorders r') : r.ports = r'.ports := by
  cases h with
  | internal related =>
      have same := congrArg Module.ports related.others
      exact same.symm
  | refl => rfl

theorem parameters (h : r.Reorders r') : r.parameters = r'.parameters := by
  cases h with
  | internal related =>
      have same := congrArg Module.parameters related.others
      exact same.symm
  | refl => rfl

/-- An instance is laid out by its name and the name of its target. -/
theorem instanceLines (h : r.Reorders r') {i j : Instance} (same : i.Reorders j) (d : Dialect)
    (params : ParamTable) (bindings : List PortBinding) :
    instanceLines d i r params bindings = instanceLines d j r' params bindings := by
  rw [same.others]
  unfold CircuitNetlist.instanceLines
  cases h with
  | refl => cases d.family <;> rfl
  | internal related => cases d.family <;> rfl

end Resolved.Reorders

/-! ### Reordered scopes -/

namespace Scope.Reorders
variable {s s' : Scope}

/-- One of the scopes has a module of the name exactly if the other one has. -/
theorem module? (h : s.Reorders s') (name : String) :
    (s.module? name = none ∧ s'.module? name = none) ∨
      ∃ m n, s.module? name = some m ∧ s'.module? name = some n ∧ m.Reorders n := by
  unfold Scope.module?
  obtain ⟨modules, -⟩ := h
  generalize s.modules = ms at modules ⊢
  generalize s'.modules = ns at modules ⊢
  induction modules with
  | nil => exact .inl ⟨rfl, rfl⟩
  | @cons m n ms ns one _ ih =>
      rw [List.find?_cons, List.find?_cons, one.name]
      split
      · exact .inr ⟨m, n, rfl, rfl, one⟩
      · exact ih

theorem define (h : s.Reorders s') {m n : Module} (same : m.Reorders n) :
    EndsAlike Cause.SameKind (fun x y => x.1 = y.1 ∧ x.2.Reorders y.2) (outcome (s.define m))
      (outcome (s'.define n)) := by
  have found := h.module? m.name
  obtain ⟨modules, others⟩ := h
  generalize s'.modules = ms at modules others
  subst others
  unfold Scope.define
  rw [same.name]
  rcases found with ⟨none, none'⟩ | ⟨m', n', some, some', -⟩
  · simp only [none, none', Option.isSome_none, Bool.false_eq_true, ↓reduceIte]
    rcases s.subcircuits.claim (sanitize m.name) (.internal m.name) with ⟨cause | _, table⟩
    · exact .error rfl
    · exact .ok ⟨rfl, .cons same modules, rfl⟩
  · rw [some, some']
    exact .error rfl

theorem claimExternal (h : s.Reorders s') (m : ExternalModule) :
    EndsAlike Cause.SameKind (fun x y => x.1 = y.1 ∧ x.2.Reorders y.2)
      (outcome (s.claimExternal m)) (outcome (s'.claimExternal m)) := by
  obtain ⟨modules, others⟩ := h
  generalize s'.modules = ms at modules others
  subst others
  unfold Scope.claimExternal
  by_cases kind : m.kind = .subcircuit
  · simp only [kind, ↓reduceIte]
    rcases s.subcircuits.claim (sanitize m.name.name) (.external m.name) with ⟨cause | _, table⟩
    · exact .error rfl
    · exact .ok ⟨rfl, modules, rfl⟩
  · simp only [kind, ↓reduceIte]
    rcases s.models.claim m.name.name (.external m.name) with ⟨cause | _, table⟩
    · exact .error rfl
    · exact .ok ⟨rfl, modules, rfl⟩

theorem resolve (h : s.Reorders s') (reference : Reference) :
    EndsAlike Cause.SameKind (fun x y => x.1.Reorders y.1 ∧ x.2.Reorders y.2)
      (outcome (s.resolve reference)) (outcome (s'.resolve reference)) := by
  unfold Scope.resolve
  cases reference with
  | internal name =>
      rcases h.module? name with ⟨none, none'⟩ | ⟨m, n, some, some', same⟩
      · simp only [none, none']
        exact .error rfl
      · simp only [some, some', same.name]
        exact .ok ⟨.internal same, h⟩
  | external q =>
      have externals : s'.external? q = s.external? q := by rw [h.others]; rfl
      simp only [externals]
      split
      · cases resolvePrimitive q.name with
        | error cause => exact .error rfl
        | ok target => exact .ok ⟨.refl target, h⟩
      · split
        · exact .error rfl
        · cases s.external? q with
          | none => exact .error rfl
          | some m =>
              obtain ⟨c, c', next, next', failed, failed', same⟩
                | ⟨name, name', next, next', claimed, claimed', rfl, after⟩ :=
                (h.claimExternal m).cases_outcome
              · simp only [failed, failed']
                exact .error same
              · simp only [claimed, claimed']
                exact .ok ⟨.refl _, after⟩

end Scope.Reorders

/-! ### Scripts in step -/

section Scripts
variable {d : Dialect} {t : SignalTable} {s s' : Scope}

/-- Where the connections are at fault, nothing of the instance has been written. -/
theorem Instance.script_alike {i j : Instance} (same : i.Reorders j) (h : s.Reorders s') :
    (i.script d t s).Alike Scope.Reorders (j.script d t s') := by
  unfold Instance.script
  have reference := congrArg Instance.reference same.others
  have parameters := congrArg Instance.parameters same.others
  have name := congrArg Instance.name same.others
  change j.reference = i.reference at reference
  change j.parameters = i.parameters at parameters
  change j.name = i.name at name
  rw [reference, parameters, name]
  apply Alike.within
  apply (Alike.use (h.resolve i.reference)).bind
  intro x y found
  obtain ⟨target, next⟩ := x
  obtain ⟨target', next'⟩ := y
  obtain ⟨stands, after⟩ := found
  change target.Reorders target' at stands
  dsimp only
  rw [← stands.parameters]
  apply Alike.bind_same
  intro params
  apply Alike.bind_same
  intro _
  apply (Alike.check (bindPorts_alike same.connections stands.ports)).bind
  intro bindings bindings' bound
  subst bound
  apply Alike.bind_same
  intro _
  rw [← stands.instanceLines same]
  apply Alike.bind_same
  intro lines
  apply Alike.bind_same
  intro _
  exact Alike.pure after

theorem Instance.scriptAll_alike {is js : List Instance}
    (same : List.Forall₂ Instance.Reorders is js) (h : s.Reorders s') :
    (Instance.scriptAll d t s is).Alike Scope.Reorders (Instance.scriptAll d t s' js) := by
  apply Alike.foldlM _ same h
  intro a b i j after one
  exact Instance.script_alike one after

/-- In front of its instances a module says at most whether it has any. -/
theorem Module.Reorders.openingScript {m n : Module} (same : m.Reorders n) (name : String) :
    n.openingScript d name t = m.openingScript d name t := by
  obtain ⟨instances, others⟩ := same
  generalize n.instances = is at instances others
  subst others
  have announced : Verilog.instancesLine d is = Verilog.instancesLine d m.instances := by
    generalize m.instances = js at instances
    cases instances with
    | nil => rfl
    | cons _ _ => rfl
  unfold Module.openingScript
  simp only [announced]

theorem Module.layout_alike {m n : Module} (same : m.Reorders n) (name : String)
    (h : s.Reorders s') :
    (m.layout d name t s).Alike Scope.Reorders (n.layout d name t s') := by
  have closing : n.closingLines d name = m.closingLines d name := by
    rw [same.others]
    rfl
  rw [layout_eq, layout_eq, same.openingScript, closing]
  apply Alike.bind_same
  intro _
  apply (Instance.scriptAll_alike same.instances h).bind
  intro a b after
  apply Alike.bind_same
  intro _
  exact Alike.pure after

theorem Module.script_alike {m n : Module} (same : m.Reorders n) (h : s.Reorders s') :
    (m.script d s).Alike Scope.Reorders (n.script d s') := by
  unfold Module.script
  have table : SignalTable.ofModule n = SignalTable.ofModule m := by
    rw [same.others]
    rfl
  rw [same.name, table]
  apply Alike.within
  apply (Alike.use (h.define same)).bind
  intro x y defined
  obtain ⟨name, inner⟩ := x
  obtain ⟨name', inner'⟩ := y
  obtain ⟨named, after⟩ := defined
  change name = name' at named
  subst named
  apply Alike.bind_same
  intro t
  apply Alike.act_bind (by simp) (by simp)
  exact Module.layout_alike same name after

end Scripts

/-- The external modules and the header are the same; the modules are written alike. -/
theorem Package.script_alike {p q : Package} (same : p.Reorders q) (d : Dialect)
    (options : Options) (s : Scope) :
    (p.script d options s).Alike Scope.Reorders (q.script d options s) := by
  obtain ⟨modules, others⟩ := same
  generalize q.modules = ms at modules others
  subst others
  unfold Package.script
  apply Alike.bind_same
  intro registered
  apply Alike.bind_same
  intro _
  have written : (p.modules.foldlM (Module.script d) registered).Alike Scope.Reorders
      (ms.foldlM (Module.script d) registered) := by
    apply Alike.foldlM _ modules (Scope.Reorders.refl registered)
    intro a b m n after one
    exact Module.script_alike one after
  apply written.bind
  intro a b after
  apply Alike.bind_same
  intro _
  apply Alike.act_bind (by simp) (by simp)
  exact Alike.pure after

/-- Where the sink refuses nothing, packages that differ in the order of connections give the same
bytes, and both are written well or both end in faults of one kind in one module and instance. -/
theorem connection_order_irrelevant (session : Session) (unlimited : session.sink.Unlimited)
    {p q : Package} (same : p.Reorders q) :
    (session.writePackage p).2.sink.content = (session.writePackage q).2.sink.content ∧
    ((∃ a b, (session.writePackage p).1 = .ok a ∧ (session.writePackage q).1 = .ok b) ∨
      ∃ f g, (session.writePackage p).1 = .error f ∧ (session.writePackage q).1 = .error g ∧
        f.kind = g.kind ∧ f.moduleName? = g.moduleName? ∧ f.instanceName? = g.instanceName?) := by
  have alike := Package.script_alike same session.dialect session.options session.scope
  have first := Session.run_of_unlimited unlimited
    (p.script session.dialect session.options session.scope)
  have second := Session.run_of_unlimited unlimited
    (q.script session.dialect session.options session.scope)
  unfold Session.writePackage
  rw [first.1, second.1, first.2, second.2, alike.lines]
  refine ⟨rfl, ?_⟩
  have ends := alike.ends
  generalize (p.script session.dialect session.options session.scope).result = end₁ at ends ⊢
  generalize (q.script session.dialect session.options session.scope).result = end₂ at ends ⊢
  cases ends with
  | @ok a b _ => exact .inl ⟨a, b, rfl, rfl⟩
  | @error f g related =>
      refine .inr ⟨f, g, rfl, rfl, related.kind, ?_, ?_⟩
      · rw [Fault.moduleName?_eq, Fault.moduleName?_eq, related.places]
      · rw [Fault.instanceName?_eq, Fault.instanceName?_eq, related.places]

/-- A leaf with the one port `p`, and an instance of it with the given connections. -/
def leafConnected (connections : List Connection) : Package :=
  { modules := [{ name := "leaf", ports := [{ signal := "p" }], signals := [.scalar "p"] },
      { name := "top", signals := [.scalar "a"],
        instances := [{ name := "u", reference := .internal "leaf", connections }] }] }

def unknownFirst : List Connection :=
  [⟨"x", .signal "a"⟩, ⟨"p", .signal "a"⟩, ⟨"p", .signal "a"⟩]

def unknownLast : List Connection :=
  [⟨"p", .signal "a"⟩, ⟨"p", .signal "a"⟩, ⟨"x", .signal "a"⟩]

/-- One port is unknown and one is connected twice; the order decides which of it is reported. -/
theorem connection_order_irrelevant_faults :
    ∃ f g, (Session.writePackage { dialect := .spice } (leafConnected unknownFirst)).1 = .error f ∧
      (Session.writePackage { dialect := .spice } (leafConnected unknownLast)).1 = .error g ∧
      f.cause = .unknownPort "x" "leaf" ∧ g.cause = .duplicateConnection "p" ∧ f.kind = g.kind ∧
      f.moduleName? = g.moduleName? ∧ f.instanceName? = g.instanceName? := by
  let session : Session := { dialect := .spice }
  have unlimited : session.sink.Unlimited := ⟨rfl, rfl⟩
  have same : (leafConnected unknownFirst).Reorders (leafConnected unknownLast) := by
    have inside : Instance.Reorders
        { name := "u", reference := .internal "leaf", connections := unknownFirst }
        { name := "u", reference := .internal "leaf", connections := unknownLast } :=
      ⟨by decide, rfl⟩
    exact ⟨.cons (.refl _) (.cons ⟨.cons inside .nil, rfl⟩ .nil), rfl⟩
  have first : (session.writePackage (leafConnected unknownFirst)).1 = .error _ :=
    (Session.run_of_unlimited unlimited _).1.trans rfl
  have second : (session.writePackage (leafConnected unknownLast)).1 = .error _ :=
    (Session.run_of_unlimited unlimited _).1.trans rfl
  rcases (connection_order_irrelevant session unlimited same).2 with ⟨a, b, ok, -⟩ | both
  · rw [first] at ok
    cases ok
  · obtain ⟨f, g, one, two, alike⟩ := both
    rw [first] at one
    rw [second] at two
    obtain rfl := Except.error.inj one
    obtain rfl := Except.error.inj two
    exact ⟨_, _, first, second, rfl, rfl, alike⟩

end CircuitNetlist
