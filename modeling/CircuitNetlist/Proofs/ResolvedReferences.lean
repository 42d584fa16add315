import CircuitNetlist.Proofs.Scopes

/-!
# What references stand for

In a scope that is in order, every module and every external module has a name and a netlist name of
its own and holds the latter in the table of its kind. Resolving a reference claims a netlist name
again; where the scope is in order that claim is one of the holder, so it never fails and changes
nothing, and what the reference stands for is decided by the names alone.
-/
namespace CircuitNetlist

/-- The name that an external module has in the netlist; only subcircuits are sanitized. -/
def ExternalModule.netlistName (m : ExternalModule) : String :=
  if m.kind = .subcircuit then sanitize m.name.name else m.name.name

/-- Different holders of one table hold different names. -/
theorem NameTable.nodup_of_held {t : NameTable} {α : Type} {xs : List α} {name : α → String}
    {owner : α → NameOwner} (distinct : (xs.map owner).Nodup)
    (held : ∀ x ∈ xs, t.owner? (name x) = some (owner x)) : (xs.map name).Nodup := by
  rw [List.nodup_map_iff_inj_on distinct.of_map]
  intro x mem y mem' same
  have one := held x mem
  rw [same, held y mem', Option.some.injEq] at one
  exact (List.inj_on_of_nodup_map distinct) mem mem' one.symm

namespace Scope

/-- Who holds a netlist name, among the subcircuits or among the models. -/
def owner? (s : Scope) (kind : ElementKind) (name : String) : Option NameOwner :=
  if kind = .subcircuit then s.subcircuits.owner? name else s.models.owner? name

/-! ### Claims of external modules -/

section Claims
variable {s after : Scope} {m : ExternalModule} {name : String}

/-- The holder claims its name without any effect. -/
theorem claimExternal_of_owner
    (held : s.owner? m.kind m.netlistName = some (.external m.name)) :
    s.claimExternal m = (.ok m.netlistName, s) := by
  unfold owner? ExternalModule.netlistName at held
  unfold claimExternal ExternalModule.netlistName
  by_cases kind : m.kind = .subcircuit
  · simp only [kind, ↓reduceIte] at held ⊢
    rw [NameTable.claim_of_owner held]
    rfl
  · simp only [kind, ↓reduceIte] at held ⊢
    rw [NameTable.claim_of_owner held]
    rfl

/-- After a claim the module holds its netlist name, and everyone else what they held before. -/
structure Claimed (s : Scope) (m : ExternalModule) (after : Scope) : Prop where
  mine : after.owner? m.kind m.netlistName = some (.external m.name)
  held : ∀ {kind name holder}, s.owner? kind name = some holder →
    after.owner? kind name = some holder
  externals : after.externals = s.externals

theorem claimed_of_claimExternal (h : s.claimExternal m = (.ok name, after)) :
    s.Claimed m after := by
  obtain ⟨kind, rfl, table, claimed, rfl⟩ | ⟨kind, rfl, table, claimed, rfl⟩ :=
    cases_of_claimExternal h
  · refine ⟨?_, ?_, rfl⟩
    · have mine := NameTable.owner?_of_claim claimed (sanitize m.name.name)
      simpa [owner?, ExternalModule.netlistName, kind] using mine
    · intro other name holder held
      by_cases same : other = .subcircuit
      · rw [owner?, if_pos same] at held ⊢
        exact NameTable.owner?_of_claim_of_some claimed held
      · rw [owner?, if_neg same] at held ⊢
        exact held
  · refine ⟨?_, ?_, rfl⟩
    · have mine := NameTable.owner?_of_claim claimed m.name.name
      simpa [owner?, ExternalModule.netlistName, kind] using mine
    · intro other name holder held
      by_cases same : other = .subcircuit
      · rw [owner?, if_pos same] at held ⊢
        exact held
      · rw [owner?, if_neg same] at held ⊢
        exact NameTable.owner?_of_claim_of_some claimed held

theorem name_of_claimExternal (h : s.claimExternal m = (.ok name, after)) :
    name = m.netlistName := by
  unfold ExternalModule.netlistName
  obtain ⟨kind, rfl, -⟩ | ⟨kind, rfl, -⟩ := cases_of_claimExternal h
  · rw [if_pos kind]
  · rw [if_neg kind]

theorem addExternal_eq_ok :
    s.addExternal m = (.ok (), after) ↔
      ∃ name claimed, s.claimExternal m = (.ok name, claimed) ∧
        after = { claimed with externals := m :: claimed.externals } := by
  unfold addExternal
  rcases claimed : s.claimExternal m with ⟨fault | name, next⟩
  · simp
  · simp [eq_comm]

theorem register_eq_ok :
    s.register m = (.ok (), after) ↔
      m.name ∉ s.externals.map (·.name) ∧
        ∃ name claimed, s.claimExternal m = (.ok name, claimed) ∧
          after = { claimed with externals := m :: claimed.externals } := by
  rw [← addExternal_eq_ok]
  unfold register checkUnregistered
  have known : (s.external? m.name).isSome ↔ m.name ∈ s.externals.map (·.name) := by
    simp [external?]
  by_cases twice : m.name ∈ s.externals.map (·.name)
  · simp [known.mpr twice, twice, throw, throwThe, MonadExceptOf.throw]
  · have new : (s.external? m.name).isSome = false := by simpa using mt known.mp twice
    simp [new, twice, pure, Except.pure]

end Claims

/-! ### Scopes in order -/

/-- No two modules and no two external modules have one name, and all of them hold their netlist
names. -/
structure InOrder (s : Scope) : Prop extends s.Consistent where
  externalNames : (s.externals.map (·.name)).Nodup
  externalsHeld : ∀ m ∈ s.externals, s.owner? m.kind m.netlistName = some (.external m.name)

theorem inOrder_empty : empty.InOrder :=
  ⟨consistent_empty, List.nodup_nil, by simp [empty]⟩

theorem InOrder.register {s after : Scope} {m : ExternalModule} (h : s.InOrder)
    (registered : s.register m = (.ok (), after)) : after.InOrder := by
  obtain ⟨fresh, name, claimed, ok, rfl⟩ := register_eq_ok.mp registered
  have grown := claimed_of_claimExternal ok
  refine ⟨?_, ?_, ?_⟩
  · have kept := keeps_of_claimExternal ok
    exact h.toConsistent.of_keeps ⟨kept.modules, kept.held⟩
  · change ((m :: claimed.externals).map (·.name)).Nodup
    rw [grown.externals]
    exact List.nodup_cons.mpr ⟨fresh, h.externalNames⟩
  · intro m' mem
    change claimed.owner? m'.kind m'.netlistName = _
    rcases List.mem_cons.mp mem with rfl | mem
    · exact grown.mine
    · rw [grown.externals] at mem
      exact grown.held (h.externalsHeld m' mem)

theorem InOrder.define {s after : Scope} {m : Module} {name : String} (h : s.InOrder)
    (defined : s.define m = (.ok name, after)) : after.InOrder := by
  have consistent := h.toConsistent.define defined
  obtain ⟨rfl, fresh, table, claimed, rfl⟩ := define_eq_ok.mp defined
  refine ⟨consistent, h.externalNames, ?_⟩
  intro m' mem
  have held := h.externalsHeld m' mem
  by_cases kind : m'.kind = .subcircuit
  · rw [owner?, if_pos kind] at held ⊢
    exact NameTable.owner?_of_claim_of_some claimed held
  · rw [owner?, if_neg kind] at held ⊢
    exact held

end Scope

/-! ### What references stand for -/

/-- The domain is none of the privileged ones. -/
def QualifiedName.Ordinary (q : QualifiedName) : Prop :=
  q.domain ≠ Primitive.idealDomain ∧ q.domain ≠ Primitive.physicalDomain

/-- What references stand for among modules and external modules: a module or an external module
stands for itself under its own name, and an ideal element of the table under its name there. -/
inductive StandsFor (modules : List Module) (externals : List ExternalModule) :
    Reference → Resolved → Prop
  | internal {m : Module} : m ∈ modules →
      StandsFor modules externals (.internal m.name) (.internal m (sanitize m.name))
  | primitive {m : ExternalModule} : m ∈ Primitive.table →
      StandsFor modules externals (.external ⟨Primitive.idealDomain, m.name.name⟩) (.primitive m)
  | subcircuit {m : ExternalModule} : m ∈ externals → m.name.Ordinary → m.kind = .subcircuit →
      StandsFor modules externals (.external m.name) (.external m (sanitize m.name.name))
  | model {m : ExternalModule} : m ∈ externals → m.name.Ordinary → m.kind ≠ .subcircuit →
      StandsFor modules externals (.external m.name) (.model m m.name.name)

/-- Only what is in the lists matters, not where. -/
theorem StandsFor.mono {modules modules' : List Module} {externals externals' : List ExternalModule}
    (known : ∀ m ∈ modules, m ∈ modules') (registered : ∀ m ∈ externals, m ∈ externals')
    {reference : Reference} {target : Resolved}
    (h : StandsFor modules externals reference target) :
    StandsFor modules' externals' reference target := by
  cases h with
  | internal mem => exact .internal (known _ mem)
  | primitive mem => exact .primitive mem
  | subcircuit mem ordinary kind => exact .subcircuit (registered _ mem) ordinary kind
  | model mem ordinary kind => exact .model (registered _ mem) ordinary kind

/-- What is wrong with a reference that stands for nothing. -/
def Reference.unresolved : Reference → Cause
  | .internal name => .undefinedModule name
  | .external q =>
    if q.domain = Primitive.idealDomain then .undefinedPrimitive q.name
    else if q.domain = Primitive.physicalDomain then .physicalPrimitive q.name
    else .undefinedExternal q

namespace Primitive

theorem table_names : (table.map (·.name.name)).Nodup := by
  decide

/-- No element of the table is a subcircuit or refers to a model card. -/
theorem table_kinds : ∀ m ∈ table, m.kind ≠ .subcircuit ∧ m.kind.isModelBased = false := by
  decide

end Primitive

namespace Scope
variable {s after : Scope}

/-- In the ideal domain nothing but the table counts. -/
theorem resolve_ideal (s : Scope) (name : String) :
    s.resolve (.external ⟨Primitive.idealDomain, name⟩) = (resolvePrimitive name, s) := by
  rw [resolve, if_pos rfl]

/-- The table has no element of a kind that cannot stand for itself. -/
theorem resolvePrimitive_of_mem {m : ExternalModule} (mem : m ∈ Primitive.table) :
    resolvePrimitive m.name.name = .ok (.primitive m) := by
  have found : Primitive.find? m.name.name = some m :=
    find?_of_nodup Primitive.table_names mem
  obtain ⟨other, ideal⟩ := Primitive.table_kinds m mem
  unfold resolvePrimitive
  rw [found]
  simp [other, ideal, pure, Except.pure]

/-- A registered module of an ordinary domain claims its name without any effect. -/
theorem InOrder.resolve_external (h : s.InOrder) {m : ExternalModule} (mem : m ∈ s.externals)
    (ordinary : m.name.Ordinary) :
    s.resolve (.external m.name) = (.ok (if m.kind = .subcircuit then .external m m.netlistName
      else .model m m.netlistName), s) := by
  have found : s.external? m.name = some m := find?_of_nodup h.externalNames mem
  have claimed := claimExternal_of_owner (h.externalsHeld m mem)
  rw [resolve, if_neg ordinary.1, if_neg ordinary.2, found]
  simp only [claimed]

/-- A reference that stands for something is resolved to it, and the scope stays as it is. -/
theorem InOrder.resolve_of_standsFor (h : s.InOrder) {reference : Reference} {target : Resolved}
    (stands : StandsFor s.modules s.externals reference target) :
    s.resolve reference = (.ok target, s) := by
  cases stands with
  | @internal m mem =>
      have found : s.module? m.name = some m := find?_of_nodup h.names mem
      rw [resolve, found]
  | @primitive m mem =>
      rw [resolve_ideal, resolvePrimitive_of_mem mem]
  | @subcircuit m mem ordinary kind =>
      rw [h.resolve_external mem ordinary, if_pos kind, ExternalModule.netlistName, if_pos kind]
  | @model m mem ordinary kind =>
      rw [h.resolve_external mem ordinary, if_neg kind, ExternalModule.netlistName, if_neg kind]

/-- A reference either stands for something, or fails with what is wrong with it. -/
theorem resolve_cases (s : Scope) (reference : Reference) :
    (∃ target, StandsFor s.modules s.externals reference target) ∨
      s.resolve reference = (.error reference.unresolved, s) := by
  cases reference with
  | internal name =>
      cases found : s.module? name with
      | none =>
          right
          rw [resolve, found, Reference.unresolved]
      | some m =>
          left
          have named : m.name = name := by simpa using List.find?_some found
          have mem : m ∈ s.modules := List.mem_of_find?_eq_some found
          rw [← named]
          exact ⟨_, .internal mem⟩
  | external q =>
      by_cases ideal : q.domain = Primitive.idealDomain
      · cases found : Primitive.find? q.name with
        | none =>
            right
            rw [resolve, if_pos ideal, Reference.unresolved, if_pos ideal, resolvePrimitive, found]
            rfl
        | some m =>
            left
            have named : m.name.name = q.name := by simpa using List.find?_some found
            have mem : m ∈ Primitive.table := List.mem_of_find?_eq_some found
            have same : q = ⟨Primitive.idealDomain, m.name.name⟩ := by rw [named, ← ideal]
            rw [same]
            exact ⟨_, .primitive mem⟩
      · by_cases physical : q.domain = Primitive.physicalDomain
        · right
          rw [resolve, if_neg ideal, if_pos physical, Reference.unresolved, if_neg ideal,
            if_pos physical]
        · cases found : s.external? q with
          | none =>
              right
              rw [resolve, if_neg ideal, if_neg physical, found, Reference.unresolved,
                if_neg ideal, if_neg physical]
          | some m =>
              left
              have named : m.name = q := by simpa using List.find?_some found
              have mem : m ∈ s.externals := List.mem_of_find?_eq_some found
              have ordinary : m.name.Ordinary := named ▸ ⟨ideal, physical⟩
              rw [← named]
              by_cases kind : m.kind = .subcircuit
              · exact ⟨_, .subcircuit mem ordinary kind⟩
              · exact ⟨_, .model mem ordinary kind⟩

/-- In any scope a reference is resolved to something that it stands for there. -/
theorem standsFor_of_resolve {reference : Reference} {target : Resolved}
    (resolved : s.resolve reference = (.ok target, after)) :
    StandsFor s.modules s.externals reference target ∧ after.externals = s.externals := by
  cases reference with
  | internal name =>
      obtain ⟨m, found, rfl, rfl⟩ := resolve_internal_eq_ok.mp resolved
      obtain rfl : m.name = name := by simpa using List.find?_some found
      exact ⟨.internal (List.mem_of_find?_eq_some found), rfl⟩
  | external q =>
      by_cases ideal : q.domain = Primitive.idealDomain
      · rw [resolve, if_pos ideal] at resolved
        obtain ⟨builtin, rfl⟩ := Prod.mk.inj resolved
        cases found : Primitive.find? q.name with
        | none =>
            rw [resolvePrimitive, found] at builtin
            exact absurd builtin throw_ne_ok
        | some m =>
            have named : m.name.name = q.name := by simpa using List.find?_some found
            have mem : m ∈ Primitive.table := List.mem_of_find?_eq_some found
            obtain rfl : q = ⟨Primitive.idealDomain, m.name.name⟩ := by rw [named, ← ideal]
            rw [resolvePrimitive_of_mem mem] at builtin
            obtain rfl := Except.ok.inj builtin
            exact ⟨.primitive mem, rfl⟩
      · by_cases physical : q.domain = Primitive.physicalDomain
        · rw [resolve, if_neg ideal, if_pos physical] at resolved
          cases resolved
        · rw [resolve, if_neg ideal, if_neg physical] at resolved
          cases found : s.external? q with
          | none => simp [found] at resolved
          | some m =>
              obtain rfl : m.name = q := by simpa using List.find?_some found
              have mem : m ∈ s.externals := List.mem_of_find?_eq_some found
              rcases ok : s.claimExternal m with ⟨fault | netlistName, claimed⟩
              · simp [found, ok] at resolved
              · simp only [found, ok, Prod.mk.injEq, Except.ok.injEq] at resolved
                obtain ⟨rfl, rfl⟩ := resolved
                obtain rfl := name_of_claimExternal ok
                refine ⟨?_, (claimed_of_claimExternal ok).externals⟩
                by_cases kind : m.kind = .subcircuit
                · rw [if_pos kind, ExternalModule.netlistName, if_pos kind]
                  exact .subcircuit mem ⟨ideal, physical⟩ kind
                · rw [if_neg kind, ExternalModule.netlistName, if_neg kind]
                  exact .model mem ⟨ideal, physical⟩ kind

theorem InOrder.resolve_eq_ok (h : s.InOrder) {reference : Reference} {target : Resolved} :
    s.resolve reference = (.ok target, after) ↔
      StandsFor s.modules s.externals reference target ∧ after = s := by
  constructor
  · intro resolved
    have stands := (standsFor_of_resolve resolved).1
    rw [h.resolve_of_standsFor stands] at resolved
    exact ⟨stands, (Prod.mk.inj resolved).2.symm⟩
  · intro both
    obtain ⟨stands, rfl⟩ := both
    exact h.resolve_of_standsFor stands

theorem InOrder.resolve_eq_error (h : s.InOrder) {reference : Reference} {cause : Cause} :
    s.resolve reference = (.error cause, after) ↔
      (∀ target, ¬ StandsFor s.modules s.externals reference target) ∧
        cause = reference.unresolved ∧ after = s := by
  constructor
  · intro failed
    rcases s.resolve_cases reference with ⟨target, stands⟩ | failed'
    · rw [h.resolve_of_standsFor stands] at failed
      cases failed
    · rw [failed'] at failed
      obtain ⟨wrong, rfl⟩ := Prod.mk.inj failed
      obtain rfl := Except.error.inj wrong
      refine ⟨?_, rfl, rfl⟩
      intro target stands
      rw [h.resolve_of_standsFor stands] at failed'
      cases failed'
  · intro both
    obtain ⟨nothing, rfl, same⟩ := both
    rw [same]
    rcases s.resolve_cases reference with ⟨target, stands⟩ | failed
    · exact absurd stands (nothing target)
    · exact failed

end Scope

end CircuitNetlist
