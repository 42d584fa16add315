import CircuitNetlist.Parameter.Resolution
import CircuitNetlist.Parameter.Table.Lemmas
import CircuitNetlist.Proofs.Steps

/-!
# What parameters merge to

The merged parameters of an instance are described by what is found under each name: for a
declared name its last override or else its default, for any other name its last override. The
traversals are described from an arbitrary start, name by name.
-/
namespace CircuitNetlist

/-- The text of a parameter's value, if it has one. -/
def Param.text? (d : Dialect) (p : Param) : Option ValueText :=
  p.value.bind fun value => (paramText d p.name value).toOption

/-- The override that counts for a name. -/
def lastOverride (overrides : List Param) (name : String) : Option Param :=
  overrides.findRev? (·.name == name)

/-- The text that the overrides give a name. -/
def givenText (d : Dialect) (overrides : List Param) (name : String) : Option ValueText :=
  (lastOverride overrides name).bind (Param.text? d)

theorem lastOverride_cons (p : Param) (overrides : List Param) (name : String) :
    lastOverride (p :: overrides) name
      = (lastOverride overrides name).or (if p.name = name then some p else none) := by
  unfold lastOverride
  rw [List.findRev?]
  cases overrides.findRev? (·.name == name) with
  | some q => rfl
  | none =>
      by_cases same : p.name = name
      · simp [same]
      · simp [same, beq_false_of_ne same]

theorem mem_of_lastOverride {overrides : List Param} {name : String} {p : Param}
    (h : lastOverride overrides name = some p) : p ∈ overrides := by
  rw [lastOverride, List.findRev?_eq_find?_reverse] at h
  exact List.mem_reverse.mp (List.mem_of_find?_eq_some h)

theorem lastOverride_eq_none_iff {overrides : List Param} {name : String} :
    lastOverride overrides name = none ↔ name ∉ overrides.map (·.name) := by
  rw [lastOverride, List.findRev?_eq_find?_reverse]
  simp

/-- Where all overrides have a text, every name among them is given one. -/
theorem givenText_isSome {d : Dialect} {overrides : List Param}
    (valued : ∀ p ∈ overrides, (p.text? d).isSome) {name : String}
    (mem : name ∈ overrides.map (·.name)) : (givenText d overrides name).isSome := by
  cases last : lastOverride overrides name with
  | none => exact absurd mem (lastOverride_eq_none_iff.mp last)
  | some p =>
      rw [givenText, last, Option.bind_some]
      exact valued p (mem_of_lastOverride last)

/-! ### Overrides -/

/-- One override is stored with its text. -/
theorem overrideStep_eq_ok {d : Dialect} {table after : ParamTable} {p : Param} :
    (match p.value with
      | none => throw (.invalidValue p.name .overrideWithoutValue)
      | some value => do return table.set p.name (← paramText d p.name value)
        : Except Cause ParamTable) = .ok after ↔
      ∃ text, p.text? d = some text ∧ after = table.set p.name text := by
  unfold Param.text?
  cases p.value with
  | none => simp [throw_ne_ok]
  | some value =>
      simp only [bind_eq_ok, pure_eq_ok, Option.bind_some]
      cases paramText d p.name value with
      | error cause => simp [Except.toOption]
      | ok text => simp [Except.toOption, eq_comm]

/-- A run over overrides stores the last one of every name. -/
structure Overridden (d : Dialect) (overrides : List Param) (before after : ParamTable) :
    Prop where
  valued : ∀ p ∈ overrides, (p.text? d).isSome
  found : ∀ name, after.get? name = (givenText d overrides name).or (before.get? name)
  distinct : before.names.Nodup → after.names.Nodup

theorem Overridden.cons {d : Dialect} {p : Param} {overrides : List Param}
    {before after : ParamTable} {text : ValueText} (first : p.text? d = some text)
    (rest : Overridden d overrides (before.set p.name text) after) :
    Overridden d (p :: overrides) before after := by
  refine ⟨?_, ?_, ?_⟩
  · exact List.forall_mem_cons.mpr ⟨by simp [first], rest.valued⟩
  · intro name
    rw [rest.found, ParamTable.get?_set]
    unfold givenText
    rw [lastOverride_cons]
    cases later : lastOverride overrides name with
    | some q =>
        obtain ⟨found, text⟩ := Option.isSome_iff_exists.mp
          (rest.valued q (mem_of_lastOverride later))
        simp [text]
    | none =>
        by_cases same : p.name = name
        · simp [same, first]
        · simp [same, Ne.symm same]
  · intro start
    exact rest.distinct (ParamTable.nodup_set start p.name text)

theorem overridden_of_fold {d : Dialect} {overrides : List Param} {before after : ParamTable}
    (run : overrides.foldlM (fun table p =>
      match p.value with
      | none => throw (.invalidValue p.name .overrideWithoutValue)
      | some value => do return table.set p.name (← paramText d p.name value)) before
        = (.ok after : Except Cause ParamTable)) :
    Overridden d overrides before after := by
  induction overrides generalizing before with
  | nil =>
      rw [List.foldlM_nil, pure_eq_ok] at run
      subst run
      exact ⟨by simp, by simp [givenText, lastOverride], id⟩
  | cons p overrides ih =>
      rw [List.foldlM_cons, bind_eq_ok] at run
      obtain ⟨between, first, rest⟩ := run
      obtain ⟨text, valued, rfl⟩ := overrideStep_eq_ok.mp first
      exact (ih rest).cons valued

/-! ### Declared parameters -/

/-- One declared parameter takes its override out, or else its default. -/
theorem resolveDeclared_eq_ok {d : Dialect} {given rest : ParamTable} {p : Param}
    {text : ValueText} :
    resolveDeclared d given p = .ok (text, rest) ↔
      (given.get? p.name).or (p.text? d) = some text ∧
        rest = if given.get? p.name = none then given else given.erase p.name := by
  unfold resolveDeclared Param.text?
  cases given.get? p.name with
  | some found => simp [eq_comm]
  | none =>
      cases p.value with
      | none => simp [throw_ne_ok]
      | some value =>
          simp only [bind_eq_ok, pure_eq_ok, Option.none_or, Option.bind_some, ↓reduceIte]
          cases paramText d p.name value with
          | error cause => simp [Except.toOption]
          | ok text' => simp [Except.toOption, eq_comm]

/-- A run over declared parameters resolves these and leaves the other overrides. -/
structure Resolves (d : Dialect) (declared : List Param) (given resolved rest after : ParamTable) :
    Prop where
  left : ∀ name, rest.get? name
    = if name ∈ declared.map (·.name) then none else given.get? name
  kept : ∀ name, name ∉ declared.map (·.name) → after.get? name = resolved.get? name
  taken : (declared.map (·.name)).Nodup → ∀ p ∈ declared,
    after.get? p.name = (given.get? p.name).or (p.text? d) ∧ (after.get? p.name).isSome
  distinct : resolved.names.Nodup → after.names.Nodup
  remain : given.names.Nodup → rest.names.Nodup

theorem Resolves.cons {d : Dialect} {p : Param} {declared : List Param}
    {given resolved rest after between : ParamTable} {text : ValueText}
    (first : resolveDeclared d given p = .ok (text, between))
    (others : Resolves d declared between (resolved.set p.name text) rest after) :
    Resolves d (p :: declared) given resolved rest after := by
  obtain ⟨found, rfl⟩ := resolveDeclared_eq_ok.mp first
  have erased : ∀ name, (if given.get? p.name = none then given else given.erase p.name).get? name
      = if name = p.name then none else given.get? name := by
    intro name
    by_cases absent : given.get? p.name = none
    · rw [if_pos absent]
      by_cases same : name = p.name
      · rw [if_pos same, same, absent]
      · rw [if_neg same]
    · rw [if_neg absent, ParamTable.get?_erase]
  refine ⟨?_, ?_, ?_, ?_, ?_⟩
  · intro name
    rw [others.left, erased]
    by_cases same : name = p.name
    · simp [same]
    · simp [same]
  · intro name undeclared
    rw [List.map_cons, List.mem_cons, not_or] at undeclared
    rw [others.kept name undeclared.2, ParamTable.get?_set, if_neg undeclared.1]
  · intro distinct
    rw [List.map_cons, List.nodup_cons] at distinct
    refine List.forall_mem_cons.mpr ⟨?_, ?_⟩
    · rw [others.kept p.name distinct.1, ParamTable.get?_set, if_pos rfl, found]
      exact ⟨rfl, rfl⟩
    · intro q mem
      have other : q.name ≠ p.name := by
        intro same
        exact distinct.1 (same ▸ List.mem_map_of_mem mem)
      have taken := others.taken distinct.2 q mem
      rw [erased, if_neg other] at taken
      exact taken
  · intro start
    exact others.distinct (ParamTable.nodup_set start p.name text)
  · intro start
    apply others.remain
    split
    · exact start
    · exact ParamTable.nodup_erase start p.name

/-- One declared parameter of a run: the table so far, and the overrides that are left. -/
def declaredStep (d : Dialect) (state : ParamTable × ParamTable) (p : Param) :
    Except Cause (ParamTable × ParamTable) := do
  let (text, rest) ← resolveDeclared d state.2 p
  return (state.1.set p.name text, rest)

theorem declaredStep_eq_ok {d : Dialect} {state after : ParamTable × ParamTable} {p : Param} :
    declaredStep d state p = .ok after ↔
      ∃ text between, resolveDeclared d state.2 p = .ok (text, between) ∧
        after = (state.1.set p.name text, between) := by
  unfold declaredStep
  simp only [bind_eq_ok, pure_eq_ok, Prod.exists]
  constructor
  · intro h
    obtain ⟨text, between, first, rfl⟩ := h
    exact ⟨text, between, first, rfl⟩
  · intro h
    obtain ⟨text, between, first, rfl⟩ := h
    exact ⟨text, between, first, rfl⟩

theorem resolves_of_fold {d : Dialect} {declared : List Param}
    {given resolved rest after : ParamTable}
    (run : declared.foldlM (declaredStep d) (resolved, given) = .ok (after, rest)) :
    Resolves d declared given resolved rest after := by
  induction declared generalizing given resolved with
  | nil =>
      rw [List.foldlM_nil, pure_eq_ok, Prod.mk.injEq] at run
      obtain ⟨rfl, rfl⟩ := run
      exact ⟨by simp, by simp, by simp, id, id⟩
  | cons p declared ih =>
      rw [List.foldlM_cons, bind_eq_ok] at run
      obtain ⟨state, first, others⟩ := run
      obtain ⟨text, between, one, rfl⟩ := declaredStep_eq_ok.mp first
      exact (ih others).cons one

/-! ### The merged table -/

/-- Storing the entries of one table in another replaces and adds. -/
theorem get?_foldl_set {entries : List (String × ValueText)} (table : ParamTable)
    (distinct : (entries.map (·.1)).Nodup) (name : String) :
    (entries.foldl (fun table entry => table.set entry.1 entry.2) table).get? name
      = ((ParamTable.mk entries).get? name).or (table.get? name) := by
  induction entries generalizing table with
  | nil => simp [ParamTable.get?]
  | cons entry entries ih =>
      rw [List.map_cons, List.nodup_cons] at distinct
      rw [List.foldl_cons, ih _ distinct.2, ParamTable.get?_set, ParamTable.get?_cons]
      by_cases same : name = entry.1
      · have absent := ((ParamTable.mk entries).get?_eq_none_iff entry.1).2 distinct.1
        rw [if_pos same, if_pos same, same, absent]
        rfl
      · rw [if_neg same, if_neg same]

theorem nodup_foldl_set {entries : List (String × ValueText)} {table : ParamTable}
    (start : table.names.Nodup) :
    (entries.foldl (fun table entry => table.set entry.1 entry.2) table).names.Nodup := by
  induction entries generalizing table with
  | nil => exact start
  | cons entry entries ih => exact ih (ParamTable.nodup_set start entry.1 entry.2)

/-- What the overrides of an instance and the declarations of its target merge to. -/
structure Merged (d : Dialect) (overrides declared : List Param) (table : ParamTable) : Prop where
  distinct : table.names.Nodup
  valued : ∀ p ∈ overrides, (p.text? d).isSome
  resolved : (declared.map (·.name)).Nodup → ∀ p ∈ declared,
    table.get? p.name = (givenText d overrides p.name).or (p.text? d) ∧
      (table.get? p.name).isSome
  passed : ∀ name, name ∉ declared.map (·.name) →
    table.get? name = givenText d overrides name

theorem merged_of_resolveParams {d : Dialect} {overrides declared : List Param}
    {merged : ResolvedParams} (h : resolveParams d overrides declared = .ok merged) :
    Merged d overrides declared merged.table := by
  simp only [resolveParams, bind_eq_ok, pure_eq_ok] at h
  obtain ⟨given, overridden, ⟨after, rest⟩, resolved, rfl⟩ := h
  have o := overridden_of_fold overridden
  have r := resolves_of_fold resolved
  have remain : (rest.entries.map (·.1)).Nodup := r.remain (o.distinct List.nodup_nil)
  have given : ∀ name, given.get? name = givenText d overrides name := by
    intro name
    rw [o.found]
    exact Option.or_none
  refine ⟨nodup_foldl_set (r.distinct List.nodup_nil), o.valued, ?_, ?_⟩
  · intro distinct p mem
    have taken := r.taken distinct p mem
    have gone : rest.get? p.name = none := by
      rw [r.left, if_pos (List.mem_map_of_mem mem)]
    rw [get?_foldl_set _ remain, gone, Option.none_or, ← given]
    exact taken
  · intro name undeclared
    have none : after.get? name = none := r.kept name undeclared
    rw [get?_foldl_set _ remain, none, Option.or_none, r.left, if_neg undeclared, given]

end CircuitNetlist
