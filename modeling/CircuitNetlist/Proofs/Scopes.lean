import CircuitNetlist.Proofs.Steps
import CircuitNetlist.Scope.Basic

/-!
# How scopes grow

Whatever fails leaves a scope as it was. Only a definition adds to the modules of a scope;
registering and resolving leave them alone, and nothing takes a netlist name away from its holder.
So the modules that a scope knows are the ones defined so far, and their netlist names are as
distinct as the modules are.
-/
namespace CircuitNetlist

/-- A holder of a name stays its holder. -/
theorem NameTable.owner?_of_claim_of_some {t after : NameTable} {name other : String}
    {owner holder : NameOwner} (claimed : t.claim name owner = (.ok (), after))
    (held : t.owner? other = some holder) : after.owner? other = some holder := by
  rw [owner?_of_claim claimed]
  by_cases same : other = name
  · rw [if_pos same]
    rw [same] at held
    unfold claim at claimed
    by_cases mine : holder = owner
    · rw [mine]
    · simp [held, mine] at claimed
  · rw [if_neg same]
    exact held

namespace Scope

/-- The modules are the same, and nobody has lost a name. -/
structure Keeps (s after : Scope) : Prop where
  modules : after.modules = s.modules
  held : ∀ {name holder}, s.subcircuits.owner? name = some holder →
    after.subcircuits.owner? name = some holder

theorem Keeps.refl (s : Scope) : s.Keeps s :=
  ⟨rfl, id⟩

theorem Keeps.trans {s between after : Scope} (first : s.Keeps between)
    (rest : between.Keeps after) : s.Keeps after := by
  refine ⟨rest.modules.trans first.modules, ?_⟩
  intro name holder held
  exact rest.held (first.held held)

/-! ### What a failure leaves -/

section Unchanged
variable {s after : Scope} {m : ExternalModule} {cause : Cause}

theorem claimExternal_unchanged (h : s.claimExternal m = (.error cause, after)) : after = s := by
  unfold claimExternal at h
  by_cases kind : m.kind = .subcircuit
  · simp only [kind, ↓reduceIte] at h
    rcases claimed : s.subcircuits.claim (sanitize m.name.name) (.external m.name)
      with ⟨fault | done, table⟩
    · rw [claimed] at h
      rw [← (Prod.mk.inj h).2, NameTable.claim_unchanged claimed]
    · rw [claimed] at h
      cases h
  · simp only [kind, ↓reduceIte] at h
    rcases claimed : s.models.claim m.name.name (.external m.name) with ⟨fault | done, table⟩
    · rw [claimed] at h
      rw [← (Prod.mk.inj h).2, NameTable.claim_unchanged claimed]
    · rw [claimed] at h
      cases h

theorem addExternal_unchanged (h : s.addExternal m = (.error cause, after)) : after = s := by
  unfold addExternal at h
  rcases claimed : s.claimExternal m with ⟨fault | name, next⟩
  · rw [claimed] at h
    rw [← (Prod.mk.inj h).2, claimExternal_unchanged claimed]
  · rw [claimed] at h
    cases h

theorem register_unchanged (h : s.register m = (.error cause, after)) : after = s := by
  unfold register at h
  cases fresh : s.checkUnregistered m.name with
  | error fault =>
      rw [fresh] at h
      exact (Prod.mk.inj h).2.symm
  | ok _ =>
      rw [fresh] at h
      exact addExternal_unchanged h

theorem define_unchanged {m : Module} (h : s.define m = (.error cause, after)) : after = s := by
  unfold define at h
  by_cases twice : (s.module? m.name).isSome
  · simp only [twice, ↓reduceIte] at h
    exact (Prod.mk.inj h).2.symm
  · simp only [twice, Bool.false_eq_true, ↓reduceIte] at h
    rcases claimed : s.subcircuits.claim (sanitize m.name) (.internal m.name)
      with ⟨fault | done, table⟩
    · rw [claimed] at h
      rw [← (Prod.mk.inj h).2, NameTable.claim_unchanged claimed]
    · rw [claimed] at h
      cases h

theorem resolve_unchanged {reference : Reference}
    (h : s.resolve reference = (.error cause, after)) : after = s := by
  cases reference with
  | internal name =>
      unfold resolve at h
      cases found : s.module? name with
      | none =>
          simp only [found] at h
          exact (Prod.mk.inj h).2.symm
      | some m => simp [found] at h
  | external name =>
      rw [resolve] at h
      by_cases ideal : name.domain = Primitive.idealDomain
      · simp only [ideal, ↓reduceIte] at h
        exact (Prod.mk.inj h).2.symm
      · by_cases physical : name.domain = Primitive.physicalDomain
        · rw [if_neg ideal, if_pos physical] at h
          exact (Prod.mk.inj h).2.symm
        · simp only [ideal, physical, ↓reduceIte] at h
          cases found : s.external? name with
          | none =>
              simp only [found] at h
              exact (Prod.mk.inj h).2.symm
          | some m =>
              rcases claimed : s.claimExternal m with ⟨fault | netlistName, next⟩
              · simp only [found, claimed] at h
                rw [← (Prod.mk.inj h).2, claimExternal_unchanged claimed]
              · simp [found, claimed] at h

end Unchanged

/-! ### What a success leaves -/

/-- A claim that succeeds is one in the table of the module's kind. -/
theorem cases_of_claimExternal {s after : Scope} {m : ExternalModule} {name : String}
    (h : s.claimExternal m = (.ok name, after)) :
    (m.kind = .subcircuit ∧ name = sanitize m.name.name ∧
      ∃ table, s.subcircuits.claim name (.external m.name) = (.ok (), table) ∧
        after = { s with subcircuits := table }) ∨
    (m.kind ≠ .subcircuit ∧ name = m.name.name ∧
      ∃ table, s.models.claim name (.external m.name) = (.ok (), table) ∧
        after = { s with models := table }) := by
  unfold claimExternal at h
  by_cases kind : m.kind = .subcircuit
  · simp only [kind, ↓reduceIte] at h
    rcases claimed : s.subcircuits.claim (sanitize m.name.name) (.external m.name)
      with ⟨fault | done, table⟩
    · rw [claimed] at h
      cases h
    · rw [claimed] at h
      obtain ⟨named, rfl⟩ := Prod.mk.inj h
      obtain rfl := Except.ok.inj named
      exact .inl ⟨kind, rfl, table, claimed, rfl⟩
  · simp only [kind, ↓reduceIte] at h
    rcases claimed : s.models.claim m.name.name (.external m.name) with ⟨fault | done, table⟩
    · rw [claimed] at h
      cases h
    · rw [claimed] at h
      obtain ⟨named, rfl⟩ := Prod.mk.inj h
      obtain rfl := Except.ok.inj named
      exact .inr ⟨kind, rfl, table, claimed, rfl⟩

theorem keeps_of_claimExternal {s after : Scope} {m : ExternalModule} {name : String}
    (h : s.claimExternal m = (.ok name, after)) : s.Keeps after := by
  obtain ⟨-, -, table, claimed, rfl⟩ | ⟨-, -, table, -, rfl⟩ := cases_of_claimExternal h
  · exact ⟨rfl, NameTable.owner?_of_claim_of_some claimed⟩
  · exact ⟨rfl, id⟩

theorem keeps_of_register {s after : Scope} {m : ExternalModule}
    (h : s.register m = (.ok (), after)) : s.Keeps after := by
  unfold register at h
  cases fresh : s.checkUnregistered m.name with
  | error fault =>
      rw [fresh] at h
      cases h
  | ok _ =>
      simp only [fresh, addExternal] at h
      rcases claimed : s.claimExternal m with ⟨fault | name, next⟩
      · rw [claimed] at h
        cases h
      · rw [claimed] at h
        obtain ⟨-, rfl⟩ := Prod.mk.inj h
        have kept := keeps_of_claimExternal claimed
        exact ⟨kept.modules, kept.held⟩

/-- What a use of a scope comes to if it succeeds, together with the scope that it leaves. -/
def outcome {α : Type} (step : Except Cause α × Scope) : Except Cause (α × Scope) :=
  step.1.map fun a => (a, step.2)

theorem outcome_eq_ok {α : Type} {step : Except Cause α × Scope} {a : α} {after : Scope} :
    outcome step = .ok (a, after) ↔ step = (.ok a, after) := by
  rcases step with ⟨_ | b, next⟩
  · simp [outcome, Except.map]
  · simp [outcome, Except.map]

/-- The scope behind a registration that succeeds. -/
def registered (s : Scope) (m : ExternalModule) : Except Cause Scope :=
  (s.register m).1.map fun _ => (s.register m).2

theorem registered_eq_ok {s after : Scope} {m : ExternalModule} :
    s.registered m = .ok after ↔ s.register m = (.ok (), after) := by
  unfold registered
  rcases s.register m with ⟨_ | _, next⟩
  · simp [Except.map]
  · simp [Except.map]

theorem keeps_of_registered {s after : Scope} {ms : List ExternalModule}
    (h : ms.foldlM registered s = .ok after) : s.Keeps after := by
  induction ms generalizing s with
  | nil =>
      rw [List.foldlM_nil, pure_eq_ok] at h
      exact h ▸ Keeps.refl s
  | cons m ms ih =>
      rw [List.foldlM_cons, bind_eq_ok] at h
      obtain ⟨between, first, rest⟩ := h
      exact (keeps_of_register (registered_eq_ok.mp first)).trans (ih rest)

/-- A reference to a module of the package is decided by the modules alone. -/
theorem resolve_internal_eq_ok {s after : Scope} {name : String} {target : Resolved} :
    s.resolve (.internal name) = (.ok target, after) ↔
      ∃ m, s.module? name = some m ∧ target = .internal m (sanitize m.name) ∧ after = s := by
  unfold resolve
  cases found : s.module? name with
  | none => simp [found]
  | some m =>
      simp only [found, Prod.mk.injEq, Except.ok.injEq, Option.some.injEq, exists_eq_left']
      constructor
      · intro h
        exact ⟨h.1.symm, h.2.symm⟩
      · intro h
        exact ⟨h.1.symm, h.2.symm⟩

theorem keeps_of_resolve {s after : Scope} {reference : Reference} {target : Resolved}
    (h : s.resolve reference = (.ok target, after)) : s.Keeps after := by
  cases reference with
  | internal name =>
      obtain ⟨-, -, -, rfl⟩ := resolve_internal_eq_ok.mp h
      exact Keeps.refl _
  | external name =>
      rw [resolve] at h
      by_cases ideal : name.domain = Primitive.idealDomain
      · simp only [ideal, ↓reduceIte] at h
        obtain ⟨-, rfl⟩ := Prod.mk.inj h
        exact Keeps.refl _
      · by_cases physical : name.domain = Primitive.physicalDomain
        · rw [if_neg ideal, if_pos physical] at h
          cases h
        · simp only [ideal, physical, ↓reduceIte] at h
          cases found : s.external? name with
          | none => simp [found] at h
          | some m =>
              rcases claimed : s.claimExternal m with ⟨fault | netlistName, next⟩
              · simp [found, claimed] at h
              · simp only [found, claimed, Prod.mk.injEq] at h
                exact h.2 ▸ keeps_of_claimExternal claimed

/-! ### Distinct names -/

/-- No two modules have one name, and each holds its netlist name. -/
structure Consistent (s : Scope) : Prop where
  names : (s.modules.map (·.name)).Nodup
  held : ∀ m ∈ s.modules, s.subcircuits.owner? (sanitize m.name) = some (.internal m.name)

theorem consistent_empty : empty.Consistent :=
  ⟨List.nodup_nil, by simp [empty]⟩

theorem Consistent.of_keeps {s after : Scope} (h : s.Consistent) (kept : s.Keeps after) :
    after.Consistent := by
  refine ⟨kept.modules ▸ h.names, ?_⟩
  intro m mem
  rw [kept.modules] at mem
  exact kept.held (h.held m mem)

theorem define_eq_ok {s after : Scope} {m : Module} {name : String} :
    s.define m = (.ok name, after) ↔
      name = sanitize m.name ∧ m.name ∉ s.modules.map (·.name) ∧
        ∃ table, s.subcircuits.claim name (.internal m.name) = (.ok (), table) ∧
          after = { s with modules := m :: s.modules, subcircuits := table } := by
  unfold define
  have known : (s.module? m.name).isSome ↔ m.name ∈ s.modules.map (·.name) := by
    simp [module?]
  by_cases twice : m.name ∈ s.modules.map (·.name)
  · simp [known.mpr twice, twice]
  · have new : (s.module? m.name).isSome = false := by simpa using mt known.mp twice
    simp only [new, Bool.false_eq_true, ↓reduceIte, twice, not_false_eq_true, true_and]
    rcases claimed : s.subcircuits.claim (sanitize m.name) (.internal m.name)
      with ⟨fault | done, table⟩
    · constructor
      · intro h
        cases h
      · intro h
        obtain ⟨rfl, table, claimed', rfl⟩ := h
        rw [claimed] at claimed'
        cases claimed'
    · constructor
      · intro h
        obtain ⟨named, rfl⟩ := Prod.mk.inj h
        obtain rfl := Except.ok.inj named
        exact ⟨rfl, table, claimed, rfl⟩
      · intro h
        obtain ⟨rfl, table', claimed', rfl⟩ := h
        rw [claimed] at claimed'
        rw [(Prod.mk.inj claimed').2]

theorem Consistent.define {s after : Scope} {m : Module} {name : String} (h : s.Consistent)
    (defined : s.define m = (.ok name, after)) : after.Consistent := by
  obtain ⟨rfl, fresh, table, claimed, rfl⟩ := define_eq_ok.mp defined
  refine ⟨List.nodup_cons.mpr ⟨fresh, h.names⟩, ?_⟩
  intro m' mem
  rcases List.mem_cons.mp mem with rfl | mem
  · change table.owner? (sanitize m'.name) = _
    rw [NameTable.owner?_of_claim claimed, if_pos rfl]
  · exact NameTable.owner?_of_claim_of_some claimed (h.held m' mem)

/-- Modules of one netlist name have one name, so they are the same. -/
theorem Consistent.netlistNames {s : Scope} (h : s.Consistent) :
    (s.modules.map fun m => sanitize m.name).Nodup := by
  rw [List.nodup_map_iff_inj_on h.names.of_map]
  intro m mem m' mem' same
  -- one netlist name has one holder
  have owner := h.held m mem
  rw [same, h.held m' mem', Option.some.injEq, NameOwner.internal.injEq] at owner
  exact (List.inj_on_of_nodup_map h.names) mem mem' owner.symm

end Scope

end CircuitNetlist
