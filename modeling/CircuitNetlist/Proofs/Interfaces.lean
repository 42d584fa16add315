import CircuitNetlist.Netlist.Package
import CircuitNetlist.Proofs.CallsOfScripts

/-!
# Interfaces

All that an instance takes from what it refers to is a name, a kind, the names of the ports and the
declared parameters. So the lines of an instance can be worked out from this interface alone, and
those of a module from the interfaces of what its instances refer to.
-/
namespace CircuitNetlist

/-- What is known of a module or an external module from outside. -/
structure Interface where
  /-- How it is referred to. -/
  reference : Reference
  kind : ElementKind
  ports : List String
  parameters : List Param
deriving DecidableEq, Repr

def Module.interface (m : Module) : Interface :=
  ⟨.internal m.name, .subcircuit, m.ports.map (·.signal), m.parameters⟩

def ExternalModule.interface (m : ExternalModule) : Interface :=
  ⟨.external m.name, m.kind, m.ports.map (·.signal), m.parameters⟩

namespace Resolved

/-- The interface of what a reference stands for. -/
def interface : Resolved → Interface
  | internal m _ => m.interface
  | external m _ | primitive m | model m _ => m.interface

end Resolved

namespace Interface

/-- The ports as far as they are seen. -/
def barePorts (face : Interface) : List Port :=
  face.ports.map fun signal => { signal }

/-- An external module of which nothing but the interface is there. -/
def bare (face : Interface) (name : QualifiedName) : ExternalModule :=
  { name, kind := face.kind, ports := face.barePorts, parameters := face.parameters }

/-- What a reference would stand for if nothing but the interface were there. -/
def resolved (face : Interface) : Resolved :=
  match face.reference with
  | .internal name =>
    .internal { name, ports := face.barePorts, parameters := face.parameters } (sanitize name)
  | .external name =>
    if name.domain = Primitive.idealDomain then .primitive (face.bare name)
    else if face.kind = .subcircuit then .external (face.bare name) (sanitize name.name)
    else .model (face.bare name) name.name

theorem signals_barePorts (face : Interface) :
    face.barePorts.map (·.signal) = face.ports := by
  rw [barePorts, List.map_map]
  exact List.map_id _

end Interface

theorem Primitive.table_domains : ∀ m ∈ table, m.name.domain = idealDomain := by
  decide

/-! ### Instances -/

section Instances
variable {d : Dialect} {t : SignalTable} {target seen : Resolved}

/-- Of the ports only the names are looked at, and at the name of the target only where one of them
is unknown. -/
theorem bindPorts_congr (names : target.ports.map (·.signal) = seen.ports.map (·.signal))
    (same : target.displayName = seen.displayName) (connections : List Connection) :
    bindPorts d t target connections = bindPorts d t seen connections := by
  have known : ∀ port, target.ports.any (·.signal == port) = seen.ports.any (·.signal == port) := by
    intro port
    have named := congrArg (fun signals => signals.any (· == port)) names
    simp only [List.any_map] at named
    exact named
  have accepted : addConnection target = addConnection seen := by
    funext before c
    simp only [addConnection, known, same]
  have bound : ∀ (ports : List Port) (accepted : List Connection),
      ports.mapM (bindPort d t accepted)
        = (ports.map (·.signal)).mapM fun signal => bindPort d t accepted { signal } := by
    intro ports accepted
    rw [List.mapM_map]
    rfl
  unfold bindPorts
  simp only [accepted, bound, names]

variable {modules : List Module} {externals : List ExternalModule} {reference : Reference}

/-- The two are the same to an instance. -/
structure SeenAs (target seen : Resolved) : Prop where
  ports : target.ports.map (·.signal) = seen.ports.map (·.signal)
  parameters : target.parameters = seen.parameters
  displayName : target.displayName = seen.displayName
  lines : ∀ (d : Dialect) (i : Instance) (params : ParamTable) (bindings : List PortBinding),
    instanceLines d i target params bindings = instanceLines d i seen params bindings

/-- What holds in each of the three layouts holds of the lines of an instance. -/
theorem instanceLines_congr {i : Instance} {params : ParamTable} {bindings : List PortBinding}
    (spice : Spice.instanceLines d i target params bindings
      = Spice.instanceLines d i seen params bindings)
    (spectre : Spectre.instanceLines d i target params bindings
      = Spectre.instanceLines d i seen params bindings)
    (verilog : Verilog.instanceLines d i target params bindings
      = Verilog.instanceLines d i seen params bindings) :
    instanceLines d i target params bindings = instanceLines d i seen params bindings := by
  unfold instanceLines
  rw [spice, spectre, verilog]

/-- What a reference stands for is the same to an instance as its bare interface. -/
theorem StandsFor.seenAs (h : StandsFor modules externals reference target) :
    SeenAs target target.interface.resolved := by
  cases h with
  | @internal m mem =>
      refine ⟨m.interface.signals_barePorts.symm, rfl, rfl, ?_⟩
      intro d i params bindings
      exact instanceLines_congr rfl rfl rfl
  | @primitive m mem =>
      have seen : m.interface.resolved = .primitive (m.interface.bare m.name) :=
        if_pos (Primitive.table_domains m mem)
      change SeenAs _ m.interface.resolved
      rw [seen]
      refine ⟨m.interface.signals_barePorts.symm, rfl, rfl, ?_⟩
      intro d i params bindings
      exact instanceLines_congr rfl rfl rfl
  | @subcircuit m mem ordinary kind =>
      have seen : m.interface.resolved
          = .external (m.interface.bare m.name) (sanitize m.name.name) :=
        (if_neg ordinary.1).trans (if_pos kind)
      change SeenAs _ m.interface.resolved
      rw [seen]
      refine ⟨m.interface.signals_barePorts.symm, rfl, rfl, ?_⟩
      intro d i params bindings
      exact instanceLines_congr rfl rfl rfl
  | @model m mem ordinary kind =>
      have seen : m.interface.resolved = .model (m.interface.bare m.name) m.name.name :=
        (if_neg ordinary.1).trans (if_neg kind)
      change SeenAs _ m.interface.resolved
      rw [seen]
      refine ⟨m.interface.signals_barePorts.symm, rfl, rfl, ?_⟩
      intro d i params bindings
      exact instanceLines_congr rfl rfl rfl

end Instances

/-- The lines of an instance, from the interface of what it refers to. -/
def Instance.linesFrom (d : Dialect) (t : SignalTable) (i : Instance) (face : Interface) :
    Except Cause (List Line) := do
  let params ← resolveParams d i.parameters face.parameters
  let bindings ← bindPorts d t face.resolved i.connections
  instanceLines d i face.resolved params.table bindings

theorem Instance.linesFrom_of_written {d : Dialect} {t : SignalTable} {scope after : Scope}
    {i : Instance} {target : Resolved} {merged : ResolvedParams} {bindings : List PortBinding}
    {ls : List Line} {modules : List Module} {externals : List ExternalModule}
    (stands : StandsFor modules externals i.reference target)
    (w : i.Written d t scope target merged bindings ls after) :
    i.linesFrom d t target.interface = .ok ls := by
  have seen := stands.seenAs
  have declared : target.interface.parameters = target.parameters := by cases target <;> rfl
  have params := w.params
  have bound := w.bound
  have lines := w.lines
  rw [← declared] at params
  rw [bindPorts_congr seen.ports seen.displayName] at bound
  rw [seen.lines] at lines
  simp only [linesFrom, bind_eq_ok]
  exact ⟨merged, params, bindings, bound, lines⟩

/-- The lines of a module, from the interfaces of what its instances refer to. -/
def Module.linesFrom (d : Dialect) (m : Module) (faces : List Interface) :
    Except Cause (List Line) := do
  let t ← SignalTable.ofModule m
  let opening ← m.openingLines d (sanitize m.name) t
  let inside ← (m.instances.zip faces).mapM fun pair => pair.1.linesFrom d t pair.2
  return opening ++ inside.flatten ++ m.closingLines d (sanitize m.name)

/-! ### What a package shows -/

instance (q : QualifiedName) : Decidable q.Ordinary :=
  inferInstanceAs (Decidable (_ ∧ _))

namespace Package

/-- The interfaces of all that an instance in the package can refer to. -/
def interfaces (p : Package) : List Interface :=
  p.modules.map Module.interface ++ Primitive.table.map ExternalModule.interface
    ++ (p.externals.filter (·.name.Ordinary)).map ExternalModule.interface

/-- The interface behind a reference. -/
def face (p : Package) (reference : Reference) : Except Cause Interface :=
  match p.interfaces.find? (·.reference == reference) with
  | some face => .ok face
  | none => .error reference.unresolved

/-- The lines of a module, for which only interfaces are taken from the package. -/
def linesOf (p : Package) (d : Dialect) (m : Module) : Except Cause (List Line) := do
  let faces ← m.instances.mapM fun i => p.face i.reference
  m.linesFrom d faces

/-- The lines of a module are the same in all packages that show its instances the same
interfaces. -/
theorem linesOf_congr {p q : Package} {m : Module}
    (same : ∀ i ∈ m.instances, q.face i.reference = p.face i.reference) (d : Dialect) :
    q.linesOf d m = p.linesOf d m := by
  have faces : ∀ is : List Instance, (∀ i ∈ is, q.face i.reference = p.face i.reference) →
      is.mapM (fun i => q.face i.reference) = is.mapM fun i => p.face i.reference := by
    intro is same
    induction is with
    | nil => rfl
    | cons i is ih =>
        rw [List.forall_mem_cons] at same
        rw [List.mapM_cons, List.mapM_cons, same.1, ih same.2]
  rw [linesOf, linesOf, faces m.instances same]

end Package

theorem Resolved.reference_interface {modules : List Module} {externals : List ExternalModule}
    {reference : Reference} {target : Resolved}
    (h : StandsFor modules externals reference target) :
    target.interface.reference = reference := by
  cases h with
  | internal mem => rfl
  | @primitive m mem =>
      have ideal := Primitive.table_domains m mem
      change Reference.external m.name = _
      rw [← ideal]
  | subcircuit mem ordinary kind => rfl
  | model mem ordinary kind => rfl

namespace Package
variable {p : Package}

/-- All that can be referred to is referred to in a way of its own. -/
theorem nodup_interfaces (modules : (p.modules.map (·.name)).Nodup)
    (externals : (p.externals.map (·.name)).Nodup) :
    (p.interfaces.map (·.reference)).Nodup := by
  have own : (p.modules.map fun m => Reference.internal m.name).Nodup := by
    have mapped := modules.map (f := Reference.internal) fun _ _ => Reference.internal.inj
    rwa [List.map_map] at mapped
  have ordinary : ((p.externals.filter (·.name.Ordinary)).map
      fun m => Reference.external m.name).Nodup := by
    have fewer : (p.externals.filter (·.name.Ordinary)).Sublist p.externals :=
      List.filter_sublist
    have some := externals.sublist (fewer.map fun m => m.name)
    have mapped := some.map (f := Reference.external) fun _ _ => Reference.external.inj
    rwa [List.map_map] at mapped
  have ideal : (Primitive.table.map fun m => Reference.external m.name).Nodup := by
    decide
  have references : p.interfaces.map (·.reference)
      = (p.modules.map fun m => Reference.internal m.name)
        ++ (Primitive.table.map fun m => Reference.external m.name)
        ++ (p.externals.filter (·.name.Ordinary)).map fun m => Reference.external m.name := by
    simp only [interfaces, List.map_append, List.map_map]
    rfl
  rw [references, List.nodup_append, List.nodup_append]
  refine ⟨⟨own, ideal, ?_⟩, ordinary, ?_⟩
  · intro a mem b mem'
    obtain ⟨m, -, rfl⟩ := List.mem_map.mp mem
    obtain ⟨m', -, rfl⟩ := List.mem_map.mp mem'
    simp
  · intro a mem b mem'
    obtain ⟨m', chosen, rfl⟩ := List.mem_map.mp mem'
    rcases List.mem_append.mp mem with mem | mem
    · obtain ⟨m, -, rfl⟩ := List.mem_map.mp mem
      simp
    · obtain ⟨m, builtin, rfl⟩ := List.mem_map.mp mem
      -- the domain of the table is none of the ordinary ones
      intro same
      have domain := Primitive.table_domains m builtin
      rw [Reference.external.inj same] at domain
      have other : m'.name.Ordinary := by simpa using (List.mem_filter.mp chosen).2
      exact other.1 domain

theorem face_of_standsFor (modules : (p.modules.map (·.name)).Nodup)
    (externals : (p.externals.map (·.name)).Nodup) {reference : Reference} {target : Resolved}
    (h : StandsFor p.modules p.externals reference target) :
    p.face reference = .ok target.interface := by
  have known : target.interface ∈ p.interfaces := by
    unfold interfaces
    rw [List.mem_append, List.mem_append]
    cases h with
    | internal mem => exact .inl (.inl (List.mem_map_of_mem mem))
    | primitive mem => exact .inl (.inr (List.mem_map_of_mem mem))
    | subcircuit mem ordinary kind =>
        exact .inr (List.mem_map_of_mem (List.mem_filter.mpr ⟨mem, decide_eq_true ordinary⟩))
    | model mem ordinary kind =>
        exact .inr (List.mem_map_of_mem (List.mem_filter.mpr ⟨mem, decide_eq_true ordinary⟩))
  have found := find?_of_nodup (nodup_interfaces modules externals) known
  rw [Resolved.reference_interface h] at found
  rw [face, found]

end Package

end CircuitNetlist
