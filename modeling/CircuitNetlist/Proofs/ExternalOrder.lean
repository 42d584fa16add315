import CircuitNetlist.Proofs.AlikeScripts
import CircuitNetlist.Proofs.PackageFaults
import CircuitNetlist.Proofs.SpiceDialects

/-!
# The order of external modules

Each order of the external modules meets a first clash of its own, but whether there is one is a
property of the modules together: their names are distinct and so are the netlist names that they
claim in one name space. Behind the registration only their order is left in the scope, and nothing
asks for it: names are looked up among distinct ones, and every holder of a netlist name is known.
-/
namespace CircuitNetlist

open Script

/-- The name space that modules of a kind have their netlist names in. -/
def ElementKind.space (k : ElementKind) : NameSpace :=
  if k = .subcircuit then .subcircuit else .model

/-- What an external module claims when it is registered. -/
def ExternalModule.claim (m : ExternalModule) : NameSpace × String :=
  (m.kind.space, m.netlistName)

/-- No two of the modules have one name, and no two claim the same. -/
structure ExternalModule.Apart (ms : List ExternalModule) : Prop where
  names : (ms.map (·.name)).Nodup
  claims : (ms.map claim).Nodup

namespace ExternalModule.Apart
variable {ms ns : List ExternalModule} {m : ExternalModule}

theorem perm (h : Apart ms) (same : ms.Perm ns) : Apart ns :=
  ⟨(same.map _).nodup h.names, (same.map _).nodup h.claims⟩

theorem of_append (h : Apart (ms ++ ns)) : Apart ns := by
  obtain ⟨names, claims⟩ := h
  rw [List.map_append] at names claims
  exact ⟨(List.nodup_append.mp names).2.1, (List.nodup_append.mp claims).2.1⟩

end ExternalModule.Apart

/-- A claim leaves a table in its name space. -/
theorem NameTable.space_of_claim (t : NameTable) (name : String) (owner : NameOwner) :
    (t.claim name owner).2.space = t.space := by
  unfold claim
  cases t.owner? name with
  | none => rfl
  | some holder => rfl

/-- Tables with the same holders are claimed from alike, and have the same holders again. -/
theorem NameTable.claim_agrees {t t' : NameTable} (owners : ∀ name, t.owner? name = t'.owner? name)
    (space : t.space = t'.space) (name : String) (owner : NameOwner) :
    (t.claim name owner).1 = (t'.claim name owner).1 ∧
      ∀ other, (t.claim name owner).2.owner? other = (t'.claim name owner).2.owner? other := by
  unfold claim
  rw [owners]
  cases t'.owner? name with
  | some holder => exact ⟨by simp only [conflict, space], owners⟩
  | none =>
      refine ⟨rfl, ?_⟩
      intro other
      have others := owners other
      unfold owner? at others ⊢
      rw [List.lookup_cons, List.lookup_cons, others]

namespace Scope

/-! ### Registered modules -/

theorem owner?_congr {kind kind' : ElementKind} (same : kind.space = kind'.space) (s : Scope)
    (name : String) : s.owner? kind name = s.owner? kind' name := by
  unfold ElementKind.space at same
  unfold owner?
  by_cases one : kind = .subcircuit
  · by_cases two : kind' = .subcircuit
    · rw [if_pos one, if_pos two]
    · simp [one, two] at same
  · by_cases two : kind' = .subcircuit
    · simp [one, two] at same
    · rw [if_neg one, if_neg two]

/-- Only external modules are known, and all netlist names are theirs. -/
structure Registered (s : Scope) : Prop extends s.InOrder where
  unwritten : s.modules = []
  space : s.subcircuits.space = .subcircuit
  holders : ∀ {kind name holder}, s.owner? kind name = some holder →
    ∃ m ∈ s.externals, m.claim = (kind.space, name) ∧ holder = .external m.name

theorem registered_empty : empty.Registered := by
  refine ⟨inOrder_empty, rfl, rfl, ?_⟩
  intro kind name holder held
  have none : empty.owner? kind name = none := by
    unfold owner?
    by_cases subcircuit : kind = .subcircuit
    · rw [if_pos subcircuit]
      rfl
    · rw [if_neg subcircuit]
      rfl
  rw [none] at held
  cases held

section Registration
variable {s after : Scope} {m : ExternalModule} {name : String}

/-- A claim changes the holder of one netlist name. -/
theorem owner?_of_claimExternal (h : s.claimExternal m = (.ok name, after)) (kind : ElementKind)
    (other : String) :
    after.owner? kind other
      = if (kind.space, other) = m.claim then some (.external m.name) else s.owner? kind other := by
  unfold owner? ExternalModule.claim ExternalModule.netlistName ElementKind.space
  obtain ⟨mine, rfl, table, claimed, rfl⟩ | ⟨mine, rfl, table, claimed, rfl⟩ :=
    cases_of_claimExternal h
  · by_cases its : kind = .subcircuit
    · simp only [mine, its, ↓reduceIte, Prod.mk.injEq, true_and]
      exact NameTable.owner?_of_claim claimed other
    · simp [mine, its]
  · by_cases its : kind = .subcircuit
    · simp [mine, its]
    · simp only [mine, its, ↓reduceIte, Prod.mk.injEq, true_and]
      exact NameTable.owner?_of_claim claimed other

/-- A netlist name that nobody holds can be claimed. -/
theorem claimExternal_of_free (free : s.owner? m.kind m.netlistName = none) :
    ∃ after, s.claimExternal m = (.ok m.netlistName, after) := by
  unfold owner? ExternalModule.netlistName at free
  unfold claimExternal ExternalModule.netlistName NameTable.claim
  by_cases kind : m.kind = .subcircuit
  · simp only [kind, ↓reduceIte] at free ⊢
    rw [free]
    exact ⟨_, rfl⟩
  · simp only [kind, ↓reduceIte] at free ⊢
    rw [free]
    exact ⟨_, rfl⟩

theorem space_of_claimExternal (h : s.claimExternal m = (.ok name, after)) :
    after.subcircuits.space = s.subcircuits.space := by
  obtain ⟨-, rfl, table, claimed, rfl⟩ | ⟨-, -, table, -, rfl⟩ := cases_of_claimExternal h
  · have space := s.subcircuits.space_of_claim (sanitize m.name.name) (.external m.name)
    rw [claimed] at space
    exact space
  · rfl

theorem externals_of_register (h : s.register m = (.ok (), after)) :
    after.externals = m :: s.externals := by
  obtain ⟨-, name, claimed, ok, rfl⟩ := register_eq_ok.mp h
  exact congrArg (m :: ·) (claimed_of_claimExternal ok).externals

theorem Registered.register (h : s.Registered) (registered : s.register m = (.ok (), after)) :
    after.Registered := by
  have order := h.toInOrder.register registered
  have kept := keeps_of_register registered
  obtain ⟨-, name, claimed, ok, rfl⟩ := register_eq_ok.mp registered
  have known := (claimed_of_claimExternal ok).externals
  have space := (space_of_claimExternal ok).trans h.space
  refine ⟨order, kept.modules.trans h.unwritten, space, ?_⟩
  intro kind other holder held
  change claimed.owner? kind other = some holder at held
  change ∃ m' ∈ m :: claimed.externals, _
  rw [known]
  rw [owner?_of_claimExternal ok] at held
  by_cases mine : (kind.space, other) = m.claim
  · rw [if_pos mine, Option.some.injEq] at held
    exact ⟨m, List.mem_cons_self, mine.symm, held.symm⟩
  · rw [if_neg mine] at held
    obtain ⟨m', mem, same, rfl⟩ := h.holders held
    exact ⟨m', List.mem_cons_of_mem _ mem, same, rfl⟩

/-- Who holds a name is decided by the modules, whatever their order. -/
theorem Registered.owner?_eq_some (h : s.Registered) {kind : ElementKind} {holder : NameOwner} :
    s.owner? kind name = some holder ↔
      ∃ m ∈ s.externals, m.claim = (kind.space, name) ∧ holder = .external m.name := by
  constructor
  · exact h.holders
  · intro known
    obtain ⟨m, mem, same, rfl⟩ := known
    obtain ⟨space, rfl⟩ := Prod.mk.inj same
    rw [← owner?_congr space]
    exact h.externalsHeld m mem

/-- Modules that are registered are apart: what two of them claimed would have one holder. -/
theorem Registered.apart (h : s.Registered) : ExternalModule.Apart s.externals := by
  refine ⟨h.externalNames, ?_⟩
  rw [List.nodup_map_iff_inj_on h.externalNames.of_map]
  intro m mem n mem' same
  obtain ⟨space, name⟩ := Prod.mk.inj same
  have held := h.externalsHeld m mem
  rw [owner?_congr space, name, h.externalsHeld n mem', Option.some.injEq,
    NameOwner.external.injEq] at held
  exact (List.inj_on_of_nodup_map h.externalNames) mem mem' held.symm

/-- One more module is registered exactly if it is apart from those that are. -/
theorem Registered.register_iff (h : s.Registered) :
    (∃ after, s.register m = (.ok (), after)) ↔ ExternalModule.Apart (m :: s.externals) := by
  constructor
  · intro registered
    obtain ⟨after, ok⟩ := registered
    rw [← externals_of_register ok]
    exact (h.register ok).apart
  · intro apart
    have fresh := (List.nodup_cons.mp apart.names).1
    have unclaimed := (List.nodup_cons.mp apart.claims).1
    have free : s.owner? m.kind m.netlistName = none := by
      cases held : s.owner? m.kind m.netlistName with
      | none => rfl
      | some holder =>
          obtain ⟨n, mem, same, -⟩ := h.holders held
          have claimed : m.claim ∈ s.externals.map ExternalModule.claim :=
            List.mem_map.mpr ⟨n, mem, same⟩
          exact absurd claimed unclaimed
    obtain ⟨claimed, ok⟩ := claimExternal_of_free free
    exact ⟨_, register_eq_ok.mpr ⟨fresh, _, claimed, ok, rfl⟩⟩

/-- What registering a list leaves in the scope. -/
theorem Registered.registered {ms : List ExternalModule} (h : s.Registered)
    (ok : ms.foldlM Scope.registered s = .ok after) :
    after.Registered ∧ after.externals = ms.reverse ++ s.externals := by
  induction ms generalizing s with
  | nil =>
      rw [List.foldlM_nil, pure_eq_ok] at ok
      exact ⟨ok ▸ h, ok ▸ rfl⟩
  | cons m ms ih =>
      rw [List.foldlM_cons, bind_eq_ok] at ok
      obtain ⟨between, succeeded, rest⟩ := ok
      have first := registered_eq_ok.mp succeeded
      obtain ⟨last, known⟩ := ih (h.register first) rest
      refine ⟨last, ?_⟩
      rw [known, externals_of_register first, List.reverse_cons, List.append_assoc,
        List.singleton_append]

/-- Whether a list is registered does not depend on its order. -/
theorem Registered.foldlM_iff {ms : List ExternalModule} (h : s.Registered) :
    (∃ after, ms.foldlM Scope.registered s = .ok after) ↔
      ExternalModule.Apart (ms.reverse ++ s.externals) := by
  constructor
  · intro registered
    obtain ⟨after, ok⟩ := registered
    obtain ⟨last, known⟩ := h.registered ok
    exact known ▸ last.apart
  · intro apart
    induction ms generalizing s with
    | nil => exact ⟨s, rfl⟩
    | cons m ms ih =>
        rw [List.reverse_cons, List.append_assoc, List.singleton_append] at apart
        obtain ⟨between, first⟩ := h.register_iff.mpr apart.of_append
        rw [← externals_of_register first] at apart
        obtain ⟨after, rest⟩ := ih (h.register first) apart
        exact ⟨after, by rw [List.foldlM_cons, registered_eq_ok.mpr first]; exact rest⟩

end Registration

/-- External modules are registered exactly if they are apart. -/
theorem registers_iff {ms : List ExternalModule} :
    (∃ after, ms.foldlM registered empty = .ok after) ↔ ExternalModule.Apart ms := by
  rw [registered_empty.foldlM_iff]
  change ExternalModule.Apart (ms.reverse ++ []) ↔ _
  rw [List.append_nil]
  constructor
  · intro apart
    exact apart.perm ms.reverse_perm
  · intro apart
    exact apart.perm ms.reverse_perm.symm

/-! ### Scopes that differ in the order -/

/-- The same is known in both scopes, and the same names are held. -/
structure SameKnown (s s' : Scope) : Prop where
  modules : s.modules = s'.modules
  externals : s.externals.Perm s'.externals
  owners : ∀ kind name, s.owner? kind name = s'.owner? kind name
  space : s.subcircuits.space = s'.subcircuits.space

/-- And both are in order. -/
structure Agrees (s s' : Scope) : Prop extends s.SameKnown s' where
  order : s.InOrder
  order' : s'.InOrder

theorem Registered.agrees {s s' : Scope} (h : s.Registered) (h' : s'.Registered)
    (same : s.externals.Perm s'.externals) : s.Agrees s' := by
  have owners : ∀ kind name, s.owner? kind name = s'.owner? kind name := by
    intro kind name
    apply Option.ext
    intro holder
    rw [h.owner?_eq_some, h'.owner?_eq_some]
    simp only [same.mem_iff]
  exact ⟨⟨h.unwritten.trans h'.unwritten.symm, same, owners, h.space.trans h'.space.symm⟩,
    h.toInOrder, h'.toInOrder⟩

/-- The same module is defined, under a name that is free or taken in both. -/
theorem SameKnown.define {s s' : Scope} (h : s.SameKnown s') (m : Module) :
    EndsAlike Eq (fun x y => x.1 = y.1 ∧ x.2.SameKnown y.2) (outcome (s.define m))
      (outcome (s'.define m)) := by
  have known : s'.module? m.name = s.module? m.name := by
    rw [module?, module?, h.modules]
  obtain ⟨claims, owners⟩ := NameTable.claim_agrees (h.owners .subcircuit) h.space
    (sanitize m.name) (.internal m.name)
  have space := s.subcircuits.space_of_claim (sanitize m.name) (.internal m.name)
  have space' := s'.subcircuits.space_of_claim (sanitize m.name) (.internal m.name)
  unfold Scope.define
  rw [known]
  by_cases twice : (s.module? m.name).isSome
  · rw [if_pos twice, if_pos twice]
    exact .error rfl
  · rw [if_neg twice, if_neg twice]
    generalize s.subcircuits.claim (sanitize m.name) (.internal m.name) = one
      at claims owners space ⊢
    generalize s'.subcircuits.claim (sanitize m.name) (.internal m.name) = two
      at claims owners space' ⊢
    obtain ⟨claimed, table⟩ := one
    obtain ⟨claimed', table'⟩ := two
    obtain rfl : claimed = claimed' := claims
    rcases claimed with cause | _
    · exact .error rfl
    refine .ok ⟨rfl, congrArg (m :: ·) h.modules, h.externals, ?_,
      space.trans (h.space.trans space'.symm)⟩
    intro kind name
    by_cases subcircuit : kind = .subcircuit
    · rw [owner?, owner?, if_pos subcircuit, if_pos subcircuit]
      exact owners name
    · have models := h.owners kind name
      rw [owner?, owner?, if_neg subcircuit, if_neg subcircuit] at models ⊢
      exact models

namespace Agrees
variable {s s' : Scope}

/-- A reference stands for the same in both. -/
theorem resolve (h : s.Agrees s') (reference : Reference) :
    EndsAlike Eq (fun x y => x.1 = y.1 ∧ x.2.Agrees y.2) (outcome (s.resolve reference))
      (outcome (s'.resolve reference)) := by
  have stands : ∀ target, StandsFor s.modules s.externals reference target ↔
      StandsFor s'.modules s'.externals reference target := by
    intro target
    rw [h.modules]
    constructor
    · exact StandsFor.mono (fun _ mem => mem) fun _ mem => h.externals.mem_iff.mp mem
    · exact StandsFor.mono (fun _ mem => mem) fun _ mem => h.externals.mem_iff.mpr mem
  rcases s.resolve_cases reference with ⟨target, stood⟩ | one
  · rw [h.order.resolve_of_standsFor stood,
      h.order'.resolve_of_standsFor ((stands target).mp stood)]
    exact .ok ⟨rfl, h⟩
  · have nothing := (h.order.resolve_eq_error.mp one).1
    have two : s'.resolve reference = (.error reference.unresolved, s') := by
      refine h.order'.resolve_eq_error.mpr ⟨?_, rfl, rfl⟩
      intro target stood'
      exact nothing target ((stands target).mpr stood')
    rw [one, two]
    exact .error rfl

theorem define (h : s.Agrees s') (m : Module) :
    EndsAlike Eq (fun x y => x.1 = y.1 ∧ x.2.Agrees y.2) (outcome (s.define m))
      (outcome (s'.define m)) := by
  apply (h.toSameKnown.define m).of_ok
  intro x y one two both
  exact ⟨both.1, both.2, h.order.define (outcome_eq_ok.mp one),
    h.order'.define (outcome_eq_ok.mp two)⟩

end Agrees
end Scope

/-! ### Scripts in step -/

section Scripts
variable {d : Dialect} {t : SignalTable} {s s' : Scope}

theorem Instance.script_agrees (i : Instance) (h : s.Agrees s') :
    (i.script d t s).Related Eq Scope.Agrees (i.script d t s') := by
  unfold Instance.script
  apply Related.within Fault.compatible_eq
  apply (Related.use Fault.compatible_eq (h.resolve i.reference)).bind
  rintro ⟨target, next⟩ ⟨target', next'⟩ ⟨same, after⟩
  change target = target' at same
  subst same
  apply Related.bind_same Fault.compatible_eq
  intro params
  apply Related.bind_same Fault.compatible_eq
  intro _
  apply Related.bind_same Fault.compatible_eq
  intro bindings
  apply Related.bind_same Fault.compatible_eq
  intro _
  apply Related.bind_same Fault.compatible_eq
  intro lines
  apply Related.bind_same Fault.compatible_eq
  intro _
  exact Related.pure after

theorem Module.script_agrees (m : Module) (h : s.Agrees s') :
    (m.script d s).Related Eq Scope.Agrees (m.script d s') := by
  unfold Module.script
  apply Related.within Fault.compatible_eq
  apply (Related.use Fault.compatible_eq (h.define m)).bind
  rintro ⟨name, inner⟩ ⟨name', inner'⟩ ⟨same, after⟩
  change name = name' at same
  subst same
  apply Related.bind_same Fault.compatible_eq
  intro signals
  apply Related.act_bind (by simp) (by simp)
  rw [layout_eq, layout_eq]
  apply Related.bind_same Fault.compatible_eq
  intro _
  have instances : (Instance.scriptAll d signals inner m.instances).Related Eq Scope.Agrees
      (Instance.scriptAll d signals inner' m.instances) := by
    apply Related.foldlM _ (List.forall₂_same.mpr fun i _ => rfl) after
    intro a b i j agree same
    exact same ▸ i.script_agrees agree
  apply instances.bind
  intro a b agree
  apply Related.bind_same Fault.compatible_eq
  intro _
  exact Related.pure agree

/-- The modules of a package are written alike, up to the same fault if there is one. -/
theorem Module.scripts_agree (ms : List Module) (h : s.Agrees s') :
    (ms.foldlM (Module.script d) s).Related Eq Scope.Agrees (ms.foldlM (Module.script d) s') := by
  apply Related.foldlM _ (List.forall₂_same.mpr fun m _ => rfl) h
  intro a b m n agree same
  exact same ▸ m.script_agrees agree

end Scripts

/-! ### Packages -/

namespace Package
variable {p q : Package} (d : Dialect) (options : Options)

theorem result_registration (p : Package) :
    (p.externals.foldlM ExternalModule.script .empty).result
      = asFault (p.externals.foldlM Scope.registered .empty) := by
  rw [ExternalModule.result_scripts, foldlM_asFault]

/-- A package whose external modules clash is refused without a line. -/
theorem reply_of_unregistered {cause : Cause}
    (clash : p.externals.foldlM Scope.registered .empty = .error cause) :
    ((Request.package p).reply d.format options {}).result = .error (.plain cause) ∧
      ((Request.package p).reply d.format options {}).text = .empty := by
  have failed := p.result_registration
  rw [clash] at failed
  constructor
  · rw [Request.result_of_unlimited d.ofFormat_format]
    change (p.script d options .empty).result.map _ = _
    rw [script, result_bind, failed]
    rfl
  · rw [text_of_unlimited, lines_of_unregistered d options failed]
    rfl

/-- Packages that have registered the same are written alike. -/
theorem script_agrees {s s' : Scope} (same : p.externals.Perm q.externals)
    (others : q = { p with externals := q.externals })
    (ok : p.externals.foldlM Scope.registered .empty = .ok s)
    (ok' : q.externals.foldlM Scope.registered .empty = .ok s') :
    (p.script d options .empty).Related Eq Scope.Agrees (q.script d options .empty) := by
  obtain ⟨known, list⟩ := Scope.registered_empty.registered ok
  obtain ⟨known', list'⟩ := Scope.registered_empty.registered ok'
  have agree : s.Agrees s' := by
    apply known.agrees known'
    rw [list, list']
    have reversed := (p.externals.reverse_perm.trans same).trans q.externals.reverse_perm.symm
    exact reversed.append_right _
  have result := p.result_registration
  have result' := q.result_registration
  rw [ok] at result
  rw [ok'] at result'
  have registration : (p.externals.foldlM ExternalModule.script .empty).Related Eq Scope.Agrees
      (q.externals.foldlM ExternalModule.script .empty) := by
    refine ⟨?_, ?_⟩
    · rw [lines_registration, lines_registration]
    · rw [result, result']
      exact .ok agree
  have headers : q.headerLines d options = p.headerLines d options := by
    rw [others]
    rfl
  have modules : q.modules = p.modules := by
    rw [others]
  unfold script
  apply registration.bind
  intro a b start
  rw [headers, modules]
  apply Related.bind_same Fault.compatible_eq
  intro _
  apply (Module.scripts_agree p.modules start).bind
  intro _ _ after
  apply Related.bind_same Fault.compatible_eq
  intro _
  apply Related.act_bind (by simp) (by simp)
  exact Related.pure after

end Package

/-- The order of the external modules changes no byte. Where they are registered, in one order and
so in all, the outcome is the same too; where they clash, nothing is written in any order, and each
order reports a clash of its own, which is a fault of resolution. -/
theorem external_order_irrelevant (d : Dialect) (options : Options) (p : Package)
    (externals : List ExternalModule) (same : p.externals.Perm externals) :
    let one := (Request.package p).reply d.format options {}
    let two := (Request.package { p with externals }).reply d.format options {}
    one.text = two.text ∧
    ((∃ s s', p.externals.foldlM Scope.registered .empty = .ok s ∧
        externals.foldlM Scope.registered .empty = .ok s' ∧ one.result = two.result) ∨
      ∃ c c', p.externals.foldlM Scope.registered .empty = .error c ∧
        externals.foldlM Scope.registered .empty = .error c' ∧
        one.result = .error (.plain c) ∧ two.result = .error (.plain c') ∧
        c.kind = .resolution ∧ c'.kind = .resolution ∧ one.text = .empty) := by
  intro one two
  have together : (∃ s, p.externals.foldlM Scope.registered .empty = .ok s) ↔
      ∃ s', externals.foldlM Scope.registered .empty = .ok s' := by
    rw [Scope.registers_iff, Scope.registers_iff]
    constructor
    · intro apart
      exact apart.perm same
    · intro apart
      exact apart.perm same.symm
  have kind : ∀ {ms : List ExternalModule} {c : Cause},
      ms.foldlM Scope.registered .empty = .error c → c.kind = .resolution := by
    intro ms c failed
    exact FailsWith.foldlM Scope.failsAs_registered ms .empty c failed
  cases first : p.externals.foldlM Scope.registered .empty with
  | error c =>
      cases second : externals.foldlM Scope.registered .empty with
      | ok s' =>
          obtain ⟨s, ok⟩ := together.mpr ⟨s', second⟩
          rw [first] at ok
          cases ok
      | error c' =>
          obtain ⟨ends, text⟩ := Package.reply_of_unregistered d options first
          obtain ⟨ends', text'⟩ := @Package.reply_of_unregistered { p with externals } d options _
            second
          refine ⟨text.trans text'.symm, .inr ⟨c, c', rfl, rfl, ends, ends', ?_, ?_, text⟩⟩
          · exact kind first
          · exact kind second
  | ok s =>
      obtain ⟨s', second⟩ := together.mp ⟨s, first⟩
      have related := @Package.script_agrees p { p with externals } d options _ _ same rfl first
        second
      refine ⟨?_, .inl ⟨s, s', rfl, second, ?_⟩⟩
      · change ((Request.package p).reply d.format options {}).text
          = ((Request.package { p with externals }).reply d.format options {}).text
        rw [Package.text_of_unlimited, Package.text_of_unlimited, related.lines]
      · change ((Request.package p).reply d.format options {}).result
          = ((Request.package { p with externals }).reply d.format options {}).result
        rw [Request.result_of_unlimited d.ofFormat_format,
          Request.result_of_unlimited d.ofFormat_format]
        change (p.script d options .empty).result.map _
          = (({ p with externals } : Package).script d options .empty).result.map _
        have ends := related.ends
        generalize (p.script d options .empty).result = end₁ at ends ⊢
        generalize (({ p with externals } : Package).script d options .empty).result = end₂
          at ends ⊢
        cases ends with
        | ok _ => rfl
        | error same => rw [same]

def vendorCell (domain : String) : ExternalModule :=
  { name := ⟨domain, "cell"⟩ }

def cellTwice : List ExternalModule :=
  [vendorCell "a", vendorCell "a", vendorCell "b"]

def cellBetween : List ExternalModule :=
  [vendorCell "a", vendorCell "b", vendorCell "a"]

def cellConflict : Cause :=
  .nameConflict .subcircuit "cell" (.external ⟨"a", "cell"⟩) (.external ⟨"b", "cell"⟩)

/-- One name is there twice, and one netlist name has two holders; the order decides which of it is
reported. -/
theorem external_order_irrelevant_clashes :
    let reply := fun externals : List ExternalModule =>
      (Request.package { externals }).reply .spice {} {}
    (reply cellTwice).text = (reply cellBetween).text ∧ (reply cellTwice).text = .empty ∧
      (reply cellTwice).result = .error (.plain (.duplicateExternal ⟨"a", "cell"⟩)) ∧
      (reply cellBetween).result = .error (.plain cellConflict) := by
  intro reply
  have same : cellTwice.Perm cellBetween := by decide
  have first : cellTwice.foldlM Scope.registered .empty
      = .error (.duplicateExternal ⟨"a", "cell"⟩) := rfl
  have second : cellBetween.foldlM Scope.registered .empty = .error cellConflict := rfl
  obtain ⟨text, ends⟩ := external_order_irrelevant .spice {} { externals := cellTwice } _ same
  rcases ends with ⟨s, s', ok, -⟩ | ⟨c, c', failed, failed', result, result', -, -, empty⟩
  · rw [first] at ok
    cases ok
  · rw [first] at failed
    rw [second] at failed'
    obtain rfl := Except.error.inj failed
    obtain rfl := Except.error.inj failed'
    exact ⟨text, empty, result, result'⟩

end CircuitNetlist
