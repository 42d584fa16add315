import CircuitNetlist.Proofs.ConnectionFaults
import CircuitNetlist.Proofs.Outcomes
import CircuitNetlist.Proofs.ParameterPrecedence

/-!
# Faults of packages

Every step of writing a package has one kind of fault: names and references are faults of
resolution, values are faults of parameters, and what a module declares or an instance connects is
at fault structurally. Outside of Verilog there are no others. So nothing that a package can hold is
beyond these formats, and what is wrong with a package is never put down to a request about it.
-/
namespace CircuitNetlist

/-! ### One kind for every step -/

theorem NameTable.failsAs_claim (t : NameTable) (name : String) (owner : NameOwner) :
    FailsAs .resolution (t.claim name owner).1 := by
  intro cause failed
  obtain ⟨holder, -, -, rfl⟩ := claim_eq_error_iff.mp failed
  cases holder <;> cases owner <;> rfl

namespace Scope

theorem failsAs_claimExternal (s : Scope) (m : ExternalModule) :
    FailsAs .resolution (s.claimExternal m).1 := by
  unfold claimExternal
  by_cases kind : m.kind = .subcircuit
  · rw [if_pos kind]
    exact (s.subcircuits.failsAs_claim _ _).map
  · rw [if_neg kind]
    exact (s.models.failsAs_claim _ _).map

theorem failsAs_addExternal (s : Scope) (m : ExternalModule) :
    FailsAs .resolution (s.addExternal m).1 := by
  have claims := s.failsAs_claimExternal m
  unfold addExternal
  rcases claimed : s.claimExternal m with ⟨fault | name, next⟩
  · rw [claimed] at claims
    exact .throw (claims fault rfl)
  · exact .pure ()

theorem failsAs_register (s : Scope) (m : ExternalModule) :
    FailsAs .resolution (s.register m).1 := by
  unfold register checkUnregistered
  by_cases twice : (s.external? m.name).isSome
  · rw [if_pos twice]
    exact .throw rfl
  · rw [if_neg twice]
    exact s.failsAs_addExternal m

theorem failsAs_registered (s : Scope) (m : ExternalModule) :
    FailsAs .resolution (s.registered m) :=
  (s.failsAs_register m).map

theorem failsAs_define (s : Scope) (m : Module) : FailsAs .resolution (s.define m).1 := by
  unfold define
  by_cases twice : (s.module? m.name).isSome
  · rw [if_pos twice]
    exact .throw rfl
  · rw [if_neg twice]
    have claims := s.subcircuits.failsAs_claim (sanitize m.name) (.internal m.name)
    rcases claimed : s.subcircuits.claim (sanitize m.name) (.internal m.name)
      with ⟨fault | done, table⟩
    · rw [claimed] at claims
      exact .throw (claims fault rfl)
    · exact .pure _

theorem failsAs_resolvePrimitive (name : String) : FailsAs .resolution (resolvePrimitive name) := by
  unfold resolvePrimitive
  cases Primitive.find? name with
  | none => exact .throw rfl
  | some m => exact .ite (.throw rfl) (.pure _)

theorem failsAs_resolve (s : Scope) (reference : Reference) :
    FailsAs .resolution (s.resolve reference).1 := by
  cases reference with
  | internal name =>
      rw [resolve]
      cases s.module? name with
      | none => exact .throw rfl
      | some m => exact .pure _
  | external name =>
      rw [resolve]
      by_cases ideal : name.domain = Primitive.idealDomain
      · rw [if_pos ideal]
        exact failsAs_resolvePrimitive _
      by_cases physical : name.domain = Primitive.physicalDomain
      · rw [if_neg ideal, if_pos physical]
        exact .throw rfl
      rw [if_neg ideal, if_neg physical]
      cases s.external? name with
      | none => exact .throw rfl
      | some m =>
          have claims := s.failsAs_claimExternal m
          rcases claimed : s.claimExternal m with ⟨fault | netlistName, next⟩
          · rw [claimed] at claims
            simp only [claimed]
            exact .throw (claims fault rfl)
          · simp only [claimed]
            exact .pure _

end Scope

namespace SignalTable

theorem failsAs_addSignal (signals : List Signal) (s : Signal) :
    FailsAs .structural (addSignal signals s) :=
  .ite (.throw rfl) (.ite (.throw rfl) (.pure _))

theorem failsAs_addPort (signals : List Signal) (ports : List (Port × Signal)) (p : Port) :
    FailsAs .structural (addPort signals ports p) := by
  apply FailsAs.ite
  · exact .throw rfl
  · cases find? signals p.signal with
    | none => exact .throw rfl
    | some s => exact .pure _

theorem failsAs_ofModule (m : Module) : FailsAs .structural (ofModule m) := by
  apply (FailsAs.foldlM failsAs_addSignal m.signals []).bind
  intro signals
  apply (FailsAs.foldlM (failsAs_addPort signals) m.ports []).bind
  intro ports
  exact .pure _

end SignalTable

section Parameters
variable (d : Dialect)

theorem failsAs_paramText (name : String) (value : Value) :
    FailsAs .parameter (paramText d name value) := by
  intro cause failed
  unfold paramText at failed
  cases text : value.textOf d with
  | ok text =>
      rw [text] at failed
      cases failed
  | error reason =>
      rw [text] at failed
      obtain rfl := Except.error.inj failed
      rfl

theorem failsAs_overrideTable (overrides : List Param) :
    FailsAs .parameter (overrideTable d overrides) := by
  apply FailsAs.foldlM
  intro table p
  cases p.value with
  | none => exact .throw rfl
  | some value =>
      apply (failsAs_paramText d p.name value).bind
      intro text
      exact .pure _

theorem failsAs_declaredStep (state : ParamTable × ParamTable) (p : Param) :
    FailsAs .parameter (declaredStep d state p) := by
  apply FailsAs.bind
  · unfold resolveDeclared
    cases state.2.get? p.name with
    | some text => exact .pure _
    | none =>
        cases p.value with
        | none => exact .throw rfl
        | some value =>
            apply (failsAs_paramText d p.name value).bind
            intro text
            exact .pure _
  intro both
  exact .pure _

theorem failsAs_resolveParams (overrides declared : List Param) :
    FailsAs .parameter (resolveParams d overrides declared) := by
  rw [resolveParams_eq_declaredStep]
  apply (failsAs_overrideTable d overrides).bind
  intro given
  apply FailsAs.bind
  · exact FailsAs.foldlM (failsAs_declaredStep d) declared _
  intro both
  exact .pure _

theorem failsAs_declaredDefault (p : Param) : FailsAs .parameter (declaredDefault d p) := by
  unfold declaredDefault
  cases p.value with
  | none => exact .throw rfl
  | some value => exact failsAs_paramText d p.name value

end Parameters

/-! ### The kinds that a package is at fault for -/

/-- What is wrong with a package as such. -/
def FaultKind.ofPackage : List FaultKind :=
  [.resolution, .parameter, .structural]

theorem FailsAs.ofPackage {α : Type} {kind : FaultKind} {step : Except Cause α}
    (h : FailsAs kind step) (mem : kind ∈ FaultKind.ofPackage) :
    FailsWith (·.kind ∈ FaultKind.ofPackage) step := by
  intro cause failed
  rw [h cause failed]
  exact mem

/-- No place changes the kind of a fault. -/
theorem FailsWith.asFault {α : Type} {P : FaultKind → Prop} {step : Except Cause α}
    (h : FailsWith (fun cause => P cause.kind) step) :
    FailsWith (fun fault => P fault.kind) (asFault step) :=
  h.mapError fun _ kind => kind

theorem FailsWith.locate {α : Type} {P : FaultKind → Prop} {steps : Except Fault α} {place : Place}
    (h : FailsWith (fun fault => P fault.kind) steps) :
    FailsWith (fun fault => P fault.kind) (locate place steps) :=
  h.mapError fun _ kind => kind

section Packages
variable (d : Dialect)

theorem Instance.failsWith_ofPackage (t : SignalTable) (scope : Scope) (i : Instance) :
    FailsWith (·.kind ∈ FaultKind.ofPackage) (i.accept d t scope) := by
  apply FailsWith.bind
  · exact (scope.failsAs_resolve i.reference).map.ofPackage (by decide)
  rintro ⟨target, after⟩
  apply FailsWith.bind
  · exact (failsAs_resolveParams d i.parameters target.parameters).ofPackage (by decide)
  intro merged
  apply FailsWith.bind
  · exact FailsAs.ofPackage failsAs_bindPorts (by decide)
  intro bindings
  exact .pure after

theorem Module.failsWith_ofPackage (scope : Scope) (m : Module) :
    FailsWith (·.kind ∈ FaultKind.ofPackage) (m.accept d scope) := by
  apply FailsWith.locate
  apply FailsWith.bind
  · exact ((scope.failsAs_define m).map.ofPackage (by decide)).asFault
  rintro ⟨name, inner⟩
  apply FailsWith.bind
  · exact ((SignalTable.failsAs_ofModule m).ofPackage (by decide)).asFault
  intro t
  apply FailsWith.bind
  · exact ((FailsAs.mapM (failsAs_declaredDefault d) m.parameters).ofPackage (by decide)).asFault
  intro defaults
  apply FailsWith.foldlM
  intro s i
  exact (i.failsWith_ofPackage d t s).asFault.locate

theorem Package.failsWith_ofPackage (scope : Scope) (p : Package) :
    FailsWith (·.kind ∈ FaultKind.ofPackage) (p.accept d scope) := by
  apply FailsWith.bind
  · apply FailsWith.foldlM
    intro s m
    exact ((s.failsAs_registered m).ofPackage (by decide)).asFault
  intro registered
  exact FailsWith.foldlM (Module.failsWith_ofPackage d) p.modules registered

end Packages

end CircuitNetlist
