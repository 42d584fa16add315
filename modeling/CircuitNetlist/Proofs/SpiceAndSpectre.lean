import CircuitNetlist.Proofs.ModuleBlocks
import CircuitNetlist.Proofs.PackageFaults
import CircuitNetlist.Proofs.SpiceDialects

/-!
# The Spice family beside Spectre

Both refuse a package for the same reasons but one. The Spice family has no letters for the scales
atto and peta and writes an exponent for them, which a mantissa that has an exponent already cannot
take. So Spectre accepts all that the Spice family accepts, and the rest of what it accepts has such
a value.
-/
namespace CircuitNetlist

open Script

/-! ### Steps that refuse more -/

/-- The first steps end well only where the second do, and where they alone fail it is for one of
these reasons. -/
inductive Stricter {ε α β : Type} (only : ε → Prop) (R : α → β → Prop) :
    Except ε α → Except ε β → Prop
  | ok {a : α} {b : β} (related : R a b) : Stricter only R (.ok a) (.ok b)
  | alone {e : ε} {y : Except ε β} (reason : only e) : Stricter only R (.error e) y
  | both {e e' : ε} : Stricter only R (.error e) (.error e')

namespace Stricter
variable {ε ε' α β γ δ κ : Type} {only : ε → Prop} {R : α → β → Prop} {S : γ → δ → Prop}

/-- The same steps refuse the same, and keep what is known of their results. -/
theorem refl {P : α → Prop} {x : Except ε α} (known : ∀ a, x = .ok a → P a) :
    Stricter only (fun a b => a = b ∧ P a) x x := by
  cases x with
  | error e => exact both
  | ok a => exact ok ⟨rfl, known a rfl⟩

theorem mono {only' : ε → Prop} {R' : α → β → Prop} {x : Except ε α} {y : Except ε β}
    (h : Stricter only R x y) (reasons : ∀ e, only e → only' e) (results : ∀ a b, R a b → R' a b) :
    Stricter only' R' x y := by
  cases h with
  | ok related => exact ok (results _ _ related)
  | alone reason => exact alone (reasons _ reason)
  | both => exact both

theorem bind {x : Except ε α} {y : Except ε β} {f : α → Except ε γ} {g : β → Except ε δ}
    (h : Stricter only R x y) (rest : ∀ a b, R a b → Stricter only S (f a) (g b)) :
    Stricter only S (x >>= f) (y >>= g) := by
  cases h with
  | ok related => exact rest _ _ related
  | alone reason => exact alone reason
  | both => exact both

theorem mapError {only' : ε' → Prop} {f : ε → ε'} {x : Except ε α} {y : Except ε β}
    (h : Stricter only R x y) (reasons : ∀ e, only e → only' (f e)) :
    Stricter only' R (x.mapError f) (y.mapError f) := by
  cases h with
  | ok related => exact ok related
  | alone reason => exact alone (reasons _ reason)
  | both => exact both

/-- Traversals of one list, from related states on. -/
theorem foldlM {f : α → κ → Except ε α} {g : β → κ → Except ε β} {xs : List κ}
    (one : ∀ x ∈ xs, ∀ a b, R a b → Stricter only R (f a x) (g b x)) {a : α} {b : β}
    (start : R a b) : Stricter only R (xs.foldlM f a) (xs.foldlM g b) := by
  induction xs generalizing a b with
  | nil => exact ok start
  | cons x xs ih =>
      rw [List.forall_mem_cons] at one
      rw [List.foldlM_cons, List.foldlM_cons]
      apply (one.1 a b start).bind
      intro a' b' next
      exact ih one.2 next

theorem mapM {f : κ → Except ε α} {g : κ → Except ε β} {xs : List κ}
    (one : ∀ x ∈ xs, Stricter only R (f x) (g x)) :
    Stricter only (List.Forall₂ R) (xs.mapM f) (xs.mapM g) := by
  induction xs with
  | nil => exact ok .nil
  | cons x xs ih =>
      rw [List.forall_mem_cons] at one
      rw [List.mapM_cons, List.mapM_cons]
      apply one.1.bind
      intro a b first
      apply (ih one.2).bind
      intro as bs others
      exact ok (.cons first others)

theorem isOk {x : Except ε α} {y : Except ε β} (h : Stricter only R x y) {a : α}
    (accepted : x = .ok a) : ∃ b, y = .ok b := by
  cases h with
  | ok related => exact ⟨_, rfl⟩
  | alone reason => cases accepted
  | both => cases accepted

theorem reason {x : Except ε α} {y : Except ε β} (h : Stricter only R x y) {e : ε} {b : β}
    (failed : x = .error e) (accepted : y = .ok b) : only e := by
  cases h with
  | ok related => cases failed
  | alone reason =>
      obtain rfl := Except.error.inj failed
      exact reason
  | both => cases accepted

/-- The values may be left out. -/
theorem ends {x : Except ε α} {y : Except ε β} (h : Stricter only R x y) :
    Stricter only (fun _ _ => True) (ends x) (ends y) := by
  cases h with
  | ok related => exact ok trivial
  | alone reason => exact alone reason
  | both => exact both

end Stricter

/-- Where a fault was met does not matter. -/
theorem Stricter.asFault {only : Cause → Prop} {α β : Type} {R : α → β → Prop}
    {x : Except Cause α} {y : Except Cause β} (h : Stricter only R x y) :
    Stricter (fun fault => only fault.cause) R (asFault x) (asFault y) :=
  h.mapError fun _ reason => reason

theorem Stricter.locate {only : Cause → Prop} {α β : Type} {R : α → β → Prop} {place : Place}
    {x : Except Fault α} {y : Except Fault β}
    (h : Stricter (fun fault => only fault.cause) R x y) :
    Stricter (fun fault => only fault.cause) R (locate place x) (locate place y) :=
  h.mapError fun _ reason => reason

/-! ### Values -/

/-- A mantissa with an exponent, at a scale that has letters in Spectre only. -/
def Scaled.TwiceInSpice (s : Scaled) : Prop :=
  (s.scale = .atto ∨ s.scale = .peta) ∧
    ∃ text, s.mantissa.textOf = .ok text ∧ hasExponentLetter text

/-- The scale is written as an exponent. -/
def Dialect.WritesExponent (d : Dialect) (scale : SiScale) : Prop :=
  (d.scaleText scale).toList.head? = some 'e'

instance (d : Dialect) (scale : SiScale) : Decidable (d.WritesExponent scale) :=
  inferInstanceAs (Decidable (_ = _))

/-- Spectre has letters for two scales more. -/
theorem writesExponent_spice (scale : SiScale) :
    Dialect.WritesExponent .spice scale ↔
      Dialect.WritesExponent .spectre scale ∨ scale = .atto ∨ scale = .peta := by
  cases scale <;> decide

theorem Scaled.textOf_eq {d : Dialect} {s : Scaled} {text : String}
    (mantissa : s.mantissa.textOf = .ok text) :
    s.textOf d = if d.WritesExponent s.scale ∧ hasExponentLetter text then .error .exponentTwice
      else .ok (text ++ d.scaleText s.scale) := by
  rw [textOf, mantissa]
  by_cases twice : d.WritesExponent s.scale ∧ hasExponentLetter text
  · rw [if_pos twice]
    obtain ⟨exponent, letter⟩ := twice
    rw [Dialect.WritesExponent] at exponent
    simp [exponent, letter, bind, Except.bind, throw, throwThe, MonadExceptOf.throw]
  · rw [if_neg twice]
    rw [Dialect.WritesExponent] at twice
    simp [twice, bind, Except.bind, pure, Except.pure]

theorem Scaled.textOf_stricter (s : Scaled) :
    Stricter (fun reason => reason = .exponentTwice ∧ s.TwiceInSpice) (fun _ _ => True)
      (s.textOf .spice) (s.textOf .spectre) := by
  cases mantissa : s.mantissa.textOf with
  | error reason =>
      rw [textOf, textOf, mantissa]
      exact .both
  | ok text =>
      rw [textOf_eq mantissa, textOf_eq mantissa]
      by_cases twice : Dialect.WritesExponent .spice s.scale ∧ hasExponentLetter text
      · rw [if_pos twice]
        by_cases both : Dialect.WritesExponent .spectre s.scale ∧ hasExponentLetter text
        · rw [if_pos both]
          exact .both
        · rcases (writesExponent_spice s.scale).mp twice.1 with other | scale
          · exact absurd ⟨other, twice.2⟩ both
          · exact .alone ⟨rfl, scale, text, mantissa, twice.2⟩
      · have neither : ¬ (Dialect.WritesExponent .spectre s.scale ∧ hasExponentLetter text) := by
          intro both
          exact twice ⟨(writesExponent_spice s.scale).mpr (.inl both.1), both.2⟩
        rw [if_neg twice, if_neg neither]
        exact .ok trivial

/-- The parameter has such a value. -/
def Param.TwiceInSpice (q : Param) : Prop :=
  ∃ s, q.value = some (.scaled s) ∧ s.TwiceInSpice

/-- The fault is that of such a value, of one of these parameters. -/
def Cause.TwiceInSpice (params : Param → Prop) (cause : Cause) : Prop :=
  ∃ q, params q ∧ q.TwiceInSpice ∧ cause = .invalidValue q.name .exponentTwice

theorem Cause.TwiceInSpice.mono {params more : Param → Prop} {cause : Cause}
    (h : cause.TwiceInSpice params) (all : ∀ q, params q → q.TwiceInSpice → more q) :
    cause.TwiceInSpice more := by
  obtain ⟨q, mem, twice, same⟩ := h
  exact ⟨q, all q mem twice, twice, same⟩

section Parameters
variable {params : Param → Prop}

theorem paramText_stricter {q : Param} {value : Value} (valued : q.value = some value)
    (mem : params q) :
    Stricter (Cause.TwiceInSpice params) (fun _ _ => True) (paramText .spice q.name value)
      (paramText .spectre q.name value) := by
  cases value with
  | int i => exact .ok trivial
  | double x =>
      unfold paramText Value.textOf
      by_cases finite : x.isFinite
      · simp only [finite, ↓reduceIte]
        exact .ok trivial
      · simp only [finite]
        exact .both
  | text s => exact .ok trivial
  | literal s => exact .ok trivial
  | scaled s =>
      apply Stricter.mapError (s.textOf_stricter.bind fun a b _ => .ok trivial)
      rintro reason ⟨rfl, twice⟩
      exact ⟨q, mem, ⟨s, valued, twice⟩, rfl⟩

/-- The two tables have the same names in order. -/
def ParamTable.SameNames (t u : ParamTable) : Prop :=
  t.names = u.names

theorem ParamTable.SameNames.set {t u : ParamTable} (h : t.SameNames u) (name : String)
    (text text' : ValueText) : (t.set name text).SameNames (u.set name text') := by
  rw [SameNames, names_set, names_set, h]

theorem overrideTable_stricter {overrides : List Param} (all : ∀ q ∈ overrides, params q) :
    Stricter (Cause.TwiceInSpice params) ParamTable.SameNames (overrideTable .spice overrides)
      (overrideTable .spectre overrides) := by
  apply Stricter.foldlM
  · intro q mem t u same
    cases valued : q.value with
    | none => exact .both
    | some value =>
        apply (paramText_stricter valued (all q mem)).bind
        intro text text' _
        exact .ok (same.set q.name text text')
  · rfl

theorem resolveDeclared_stricter {q : Param} (mem : params q) {t u : ParamTable}
    (same : t.SameNames u) :
    Stricter (Cause.TwiceInSpice params) (fun a b => a.2.SameNames b.2)
      (resolveDeclared .spice t q) (resolveDeclared .spectre u q) := by
  unfold resolveDeclared
  have given : t.get? q.name = none ↔ u.get? q.name = none := by
    rw [ParamTable.get?_eq_none_iff, ParamTable.get?_eq_none_iff, same]
  cases mine : t.get? q.name with
  | some text =>
      cases other : u.get? q.name with
      | none => simp [mine, other] at given
      | some text' =>
          apply Stricter.ok
          simp only [ParamTable.SameNames, ParamTable.names_erase]
          rw [same]
  | none =>
      rw [given.mp mine]
      cases valued : q.value with
      | none => exact .both
      | some value =>
          apply (paramText_stricter valued mem).bind
          intro text text' _
          exact .ok same

theorem resolveParams_stricter {overrides declared : List Param}
    (given : ∀ q ∈ overrides, params q) (defaults : ∀ q ∈ declared, params q) :
    Stricter (Cause.TwiceInSpice params) (fun _ _ => True) (resolveParams .spice overrides declared)
      (resolveParams .spectre overrides declared) := by
  rw [resolveParams_eq_declaredStep, resolveParams_eq_declaredStep]
  apply (overrideTable_stricter given).bind
  intro t u same
  have run : Stricter (Cause.TwiceInSpice params) (fun a b => a.2.SameNames b.2)
      (declared.foldlM (declaredStep .spice) (.empty, t))
      (declared.foldlM (declaredStep .spectre) (.empty, u)) := by
    apply Stricter.foldlM
    · intro q mem a b same
      apply (resolveDeclared_stricter (defaults q mem) same).bind
      intro c c' left
      exact .ok left
    · exact same
  apply run.bind
  intro a b _
  exact .ok trivial

theorem declaredDefault_stricter {q : Param} (mem : params q) :
    Stricter (Cause.TwiceInSpice params) (fun _ _ => True) (declaredDefault .spice q)
      (declaredDefault .spectre q) := by
  unfold declaredDefault
  cases valued : q.value with
  | none => exact .both
  | some value => exact paramText_stricter valued mem

end Parameters

/-! ### Packages -/

/-- A parameter that something in the package overrides or declares. -/
def Package.Carries (p : Package) (q : Param) : Prop :=
  (∃ m ∈ p.modules, q ∈ m.parameters ∨ ∃ i ∈ m.instances, q ∈ i.parameters) ∨
    ∃ m ∈ p.externals, q ∈ m.parameters

/-- The ideal elements declare no such value. -/
theorem Primitive.table_values : ∀ m ∈ table, ∀ q ∈ m.parameters,
    q.value = none ∨ q.value = some (.int 0) := by
  decide

namespace Package
variable {p : Package} {scope : Scope}

/-- What the target of an instance declares is carried by the package, if it is such a value. -/
theorem carries_of_standsFor {reference : Reference} {target : Resolved}
    (stands : StandsFor p.modules p.externals reference target) {q : Param}
    (declared : q ∈ target.parameters) (twice : q.TwiceInSpice) : p.Carries q := by
  cases stands with
  | internal mem => exact .inl ⟨_, mem, .inl declared⟩
  | subcircuit mem ordinary kind => exact .inr ⟨_, mem, declared⟩
  | model mem ordinary kind => exact .inr ⟨_, mem, declared⟩
  | primitive mem =>
      obtain ⟨s, valued, -⟩ := twice
      rcases Primitive.table_values _ mem q declared with none | zero
      · rw [valued] at none
        cases none
      · rw [valued] at zero
        cases zero

theorem Knows.instance_stricter (h : p.Knows scope) {m : Module} (mem : m ∈ p.modules)
    {i : Instance} (mem' : i ∈ m.instances) (t : SignalTable) :
    Stricter (Cause.TwiceInSpice p.Carries) (fun a b => a = b ∧ p.Knows a)
      (i.accept .spice t scope) (i.accept .spectre t scope) := by
  unfold Instance.accept
  rw [bindPorts_dialects (d := .spice) (e := .spectre) (by decide) (by decide)]
  rcases resolved : scope.resolve i.reference with ⟨cause | target, after⟩
  · exact .both
  · obtain ⟨stands, rfl⟩ := h.order.resolve_eq_ok.mp resolved
    have known := stands.mono h.modules h.externals
    have params : Stricter (Cause.TwiceInSpice p.Carries) (fun _ _ => True)
        (resolveParams .spice i.parameters target.parameters)
        (resolveParams .spectre i.parameters target.parameters) := by
      apply (@resolveParams_stricter (fun q => q ∈ i.parameters ∨ q ∈ target.parameters) _ _
        (fun q => .inl) (fun q => .inr)).mono
      · intro cause reason
        apply reason.mono
        rintro q (overridden | declared) twice
        · exact .inl ⟨m, mem, .inr ⟨i, mem', overridden⟩⟩
        · exact carries_of_standsFor known declared twice
      · intro _ _ _
        trivial
    apply params.bind
    intro _ _ _
    cases bindPorts .spectre t target i.connections with
    | error cause => exact .both
    | ok bindings => exact .ok ⟨rfl, h⟩

theorem Knows.module_stricter (h : p.Knows scope) {m : Module} (mem : m ∈ p.modules) :
    Stricter (fun fault => fault.cause.TwiceInSpice p.Carries) (fun a b => a = b ∧ p.Knows a)
      (m.accept .spice scope) (m.accept .spectre scope) := by
  have known : ∀ both, Scope.outcome (scope.define m) = .ok both → p.Knows both.2 := by
    intro both defined
    exact h.define mem (Scope.outcome_eq_ok.mp defined)
  have defaults : Stricter (Cause.TwiceInSpice p.Carries) (List.Forall₂ fun _ _ => True)
      (m.parameters.mapM (declaredDefault .spice))
      (m.parameters.mapM (declaredDefault .spectre)) := by
    apply Stricter.mapM
    intro q declared
    exact declaredDefault_stricter (.inl ⟨m, mem, .inl declared⟩)
  unfold Module.accept
  apply Stricter.locate
  apply (Stricter.refl known).asFault.bind
  rintro ⟨name, inner⟩ _ ⟨rfl, inside⟩
  apply (Stricter.refl fun _ _ => trivial).asFault.bind
  rintro t _ ⟨rfl, -⟩
  apply defaults.asFault.bind
  intro _ _ _
  apply Stricter.foldlM
  · rintro i mem' s _ ⟨rfl, here⟩
    exact (here.instance_stricter mem mem' t).asFault.locate
  · exact ⟨rfl, inside⟩

theorem accept_stricter (p : Package) :
    Stricter (fun fault => fault.cause.TwiceInSpice p.Carries) (fun a b => a = b ∧ p.Knows a)
      (p.accept .spice .empty) (p.accept .spectre .empty) := by
  unfold accept
  have registration : Stricter (fun fault => fault.cause.TwiceInSpice p.Carries)
      (fun a b => a = b ∧ p.Knows a)
      (p.externals.foldlM (fun s m => asFault (s.registered m)) .empty)
      (p.externals.foldlM (fun s m => asFault (s.registered m)) .empty) := by
    apply Stricter.foldlM
    · rintro m mem s _ ⟨rfl, here⟩
      apply Stricter.asFault
      apply Stricter.refl
      intro after registered
      exact here.register mem (Scope.registered_eq_ok.mp registered)
    · exact ⟨rfl, p.knows_empty⟩
  apply registration.bind
  rintro registered _ ⟨rfl, known⟩
  apply Stricter.foldlM
  · rintro m mem s _ ⟨rfl, here⟩
    exact here.module_stricter mem
  · exact ⟨rfl, known⟩

end Package

section Replies
variable {f : Format} {d : Dialect}

/-- What the Spice family accepts is accepted by Spectre. What Spectre accepts and the Spice family
does not has a parameter with a mantissa that has an exponent, at the scale atto or peta, and it is
that parameter which the Spice family refuses. Neither of them finds anything in a package that the
format cannot express, or anything wrong with the request. -/
theorem spectre_accepts_spice (dialect : Dialect.ofFormat f = .ok d) (family : d.family = .spice)
    (options : Options) (p : Package) :
    let reply := fun f sink => (Request.package p).reply f options sink
    ((reply f {}).result = .ok () → (reply .spectre {}).result = .ok ()) ∧
    (∀ fault, (reply f {}).result = .error fault → (reply .spectre {}).result = .ok () →
      ∃ q s text, p.Carries q ∧ q.value = some (.scaled s) ∧ (s.scale = .atto ∨ s.scale = .peta) ∧
        s.mantissa.textOf = .ok text ∧ hasExponentLetter text ∧
        fault.cause = .invalidValue q.name .exponentTwice) ∧
    ∀ g ∈ [f, .spectre], ∀ sink fault, (reply g sink).result = .error fault →
      fault.kind ≠ .unsupported ∧ fault.kind ≠ .invalidInput := by
  intro reply
  have spectre : Dialect.ofFormat .spectre = .ok .spectre := rfl
  have expands : d.family ≠ .verilog := by simp [family]
  have expands' : Dialect.spectre.family ≠ .verilog := by decide
  have same : Package.accept d = Package.accept .spice :=
    Package.accept_congr (paramText_congr family) expands (by decide)
  have here : (reply f {}).result = ends (p.accept .spice .empty) := by
    rw [p.result_of_reply dialect expands, same]
  have there : (reply .spectre {}).result = ends (p.accept .spectre .empty) :=
    p.result_of_reply spectre expands'
  have stricter := p.accept_stricter.ends
  refine ⟨?_, ?_, ?_⟩
  · intro written
    rw [here] at written
    obtain ⟨u, accepted⟩ := stricter.isOk written
    rw [there, accepted]
  · intro fault failed accepted
    rw [here] at failed
    rw [there] at accepted
    obtain ⟨q, carried, ⟨s, valued, scale, text, mantissa, letter⟩, cause⟩ :=
      stricter.reason failed accepted
    exact ⟨q, s, text, carried, valued, scale, mantissa, letter, cause⟩
  · have kinds : ∀ g e, Dialect.ofFormat g = .ok e → e.family ≠ .verilog → ∀ sink fault,
        (reply g sink).result = .error fault →
          fault.kind ≠ .unsupported ∧ fault.kind ≠ .invalidInput := by
      intro g e written expands sink fault failed
      rcases Package.fault_of_reply written expands failed with output | own
      · rw [output]
        decide
      · have kind := p.failsWith_ofPackage e .empty fault (ends_eq_error.mp own)
        simp only [FaultKind.ofPackage, List.mem_cons, List.not_mem_nil, or_false] at kind
        rcases kind with kind | kind | kind
        · rw [kind]
          decide
        · rw [kind]
          decide
        · rw [kind]
          decide
    simp only [List.forall_mem_cons, List.not_mem_nil, false_implies, implies_true, and_true]
    exact ⟨kinds f d dialect expands, kinds .spectre .spectre spectre expands'⟩

end Replies

/-- A module whose one parameter has the given mantissa at the scale atto. -/
def attoDefault (mantissa : String) : Package :=
  { modules := [{ name := "m",
                  parameters := [.withValue "c" (.scaled ⟨.atto, .text mantissa⟩)] }] }

/-- With an exponent in the mantissa only Spectre can write it, and without one both can. -/
theorem spectre_accepts_spice_atto :
    ((Request.package (attoDefault "1e3")).reply .spectre {} {}).result = .ok () ∧
    ((Request.package (attoDefault "1e3")).reply .xyce {} {}).result
      = .error (.ofPlaces [.moduleNamed "m"] (.invalidValue "c" .exponentTwice)) ∧
    (∃ q s text, (attoDefault "1e3").Carries q ∧ q.value = some (.scaled s) ∧
      (s.scale = .atto ∨ s.scale = .peta) ∧ s.mantissa.textOf = .ok text ∧ hasExponentLetter text ∧
      q.name = "c") ∧
    ((Request.package (attoDefault "2")).reply .spectre {} {}).result = .ok () := by
  have spectre : Dialect.ofFormat .spectre = .ok .spectre := rfl
  have xyce : Dialect.ofFormat .xyce = .ok .xyce := rfl
  have accepted : ((Request.package (attoDefault "1e3")).reply .spectre {} {}).result = .ok () :=
    Request.result_of_unlimited spectre _
  have refused : ((Request.package (attoDefault "1e3")).reply .xyce {} {}).result
      = .error (.ofPlaces [.moduleNamed "m"] (.invalidValue "c" .exponentTwice)) :=
    Request.result_of_unlimited xyce _
  have plain : ((Request.package (attoDefault "2")).reply .xyce {} {}).result = .ok () :=
    Request.result_of_unlimited xyce _
  obtain ⟨-, alone, -⟩ := spectre_accepts_spice xyce rfl {} (attoDefault "1e3")
  obtain ⟨q, s, text, carried, valued, scale, mantissa, letter, cause⟩ := alone _ refused accepted
  obtain ⟨both, -, -⟩ := spectre_accepts_spice xyce rfl {} (attoDefault "2")
  refine ⟨accepted, refused, ?_, both plain⟩
  exact ⟨q, s, text, carried, valued, scale, mantissa, letter,
    (Cause.invalidValue.inj cause).1.symm⟩

end CircuitNetlist
