import CircuitNetlist.Proofs.ParameterMerge

/-!
# Which value a parameter gets

The first declaration of a name uses its override up. So a name that is declared once gets its last
override or else its default, while a further declaration of the same name falls back on the
default of its own, which replaces the override, or is missing one. The declarations are looked at
one by one, each behind the ones in front of it.
-/
namespace CircuitNetlist

theorem resolveParams_eq_declaredStep (d : Dialect) (overrides declared : List Param) :
    resolveParams d overrides declared = do
      let given ← overrideTable d overrides
      let (resolved, rest) ← declared.foldlM (declaredStep d) (ParamTable.empty, given)
      let table := rest.entries.foldl (fun table entry => table.set entry.1 entry.2) resolved
      return { table, undeclared := rest.names } := rfl

/-- A declaration behind others has a text: an override that is not used up, or its default. -/
def Param.Supplied (d : Dialect) (overrides front : List Param) (p : Param) : Prop :=
  (p.text? d).isSome ∨ (p.name ∈ overrides.map (·.name) ∧ p.name ∉ front.map (·.name))

/-- All declarations of a list have a text. -/
def AllSupplied (d : Dialect) (overrides declared : List Param) : Prop :=
  ∀ front p back, declared = front ++ p :: back → p.Supplied d overrides front

/-! ### The last of several -/

theorem lastOverride_eq_some_iff {params : List Param} {name : String} {p : Param} :
    lastOverride params name = some p ↔
      p.name = name ∧ ∃ front back, params = front ++ p :: back ∧ name ∉ back.map (·.name) := by
  rw [lastOverride, List.findRev?_eq_find?_reverse, List.find?_eq_some_iff_append]
  simp only [beq_iff_eq, Bool.not_eq_true', beq_eq_false_iff_ne, ne_eq, List.mem_map, not_exists,
    not_and]
  constructor
  · intro h
    obtain ⟨named, after, before, split, others⟩ := h
    refine ⟨named, before.reverse, after.reverse, ?_, ?_⟩
    · have back := congrArg List.reverse split
      simpa using back
    · intro q mem
      exact others q (List.mem_reverse.mp mem)
  · intro h
    obtain ⟨named, front, back, rfl, others⟩ := h
    refine ⟨named, back.reverse, front.reverse, by simp, ?_⟩
    intro q mem
    exact others q (List.mem_reverse.mp mem)

/-! ### Overrides -/

theorem overrideTable_isOk {d : Dialect} {overrides : List Param}
    (valued : ∀ p ∈ overrides, (p.text? d).isSome) :
    ∃ given, overrideTable d overrides = .ok given ∧
      ∀ name, given.get? name = givenText d overrides name := by
  cases run : overrideTable d overrides with
  | ok given =>
      refine ⟨given, rfl, ?_⟩
      intro name
      have found := (overridden_of_fold run).found name
      rw [found]
      exact Option.or_none
  | error cause =>
      -- the first override that fails would have no text
      obtain ⟨front, p, back, between, split, -, failed⟩ := foldlM_eq_error.mp run
      have mem : p ∈ overrides := by simp [split]
      obtain ⟨text, valued⟩ := Option.isSome_iff_exists.mp (valued p mem)
      have stored := failed.symm.trans (overrideStep_eq_ok.mpr ⟨text, valued, rfl⟩)
      cases stored

/-! ### Declarations -/

section Declarations
variable {d : Dialect} {overrides front : List Param} {given resolved rest : ParamTable}
  {p : Param}

/-- A declared parameter has no text if its override is gone and its default is missing or has
no text. -/
theorem resolveDeclared_eq_error {cause : Cause} :
    resolveDeclared d given p = .error cause ↔
      given.get? p.name = none ∧ (p.value = none ∧ cause = .missingParameter p.name ∨
        ∃ value, p.value = some value ∧ paramText d p.name value = .error cause) := by
  unfold resolveDeclared
  cases given.get? p.name with
  | some text => simp
  | none =>
      cases p.value with
      | none => simp [throw, throwThe, MonadExceptOf.throw, eq_comm]
      | some value =>
          cases written : paramText d p.name value with
          | error cause' => simp [written, bind, Except.bind]
          | ok text => simp [written, bind, Except.bind, pure, Except.pure]

/-- A value without a text is an invalid one, not a missing one. -/
theorem paramText_ne_missing {name other : String} {value : Value} :
    paramText d name value ≠ .error (.missingParameter other) := by
  unfold paramText
  cases value.textOf d with
  | error reason => simp [Except.mapError]
  | ok text => simp [Except.mapError]

theorem declaredStep_eq_error {state : ParamTable × ParamTable} {cause : Cause} :
    declaredStep d state p = .error cause ↔ resolveDeclared d state.2 p = .error cause := by
  unfold declaredStep
  rw [bind_eq_error]
  constructor
  · intro h
    rcases h with failed | ⟨both, -, stored⟩
    · exact failed
    · cases stored
  · exact .inl

/-- The text of a declaration behind others: the override of its name, unless one of the others has
used it up, or else its default. -/
def settledText (d : Dialect) (overrides front : List Param) (p : Param) : Option ValueText :=
  (if p.name ∈ front.map (·.name) then none else givenText d overrides p.name).or (p.text? d)

/-- Behind the declarations in front, what is left of the overrides settles the next one. -/
theorem settledText_eq (start : ∀ name, given.get? name = givenText d overrides name)
    (run : front.foldlM (declaredStep d) (.empty, given) = .ok (resolved, rest)) :
    (rest.get? p.name).or (p.text? d) = settledText d overrides front p := by
  have left := (resolves_of_fold run).left p.name
  rw [left, start, settledText]

theorem settledText_isSome_iff (valued : ∀ p ∈ overrides, (p.text? d).isSome) :
    (settledText d overrides front p).isSome ↔ p.Supplied d overrides front := by
  unfold settledText Param.Supplied
  rw [Option.isSome_or, Bool.or_eq_true, or_comm]
  have named : (givenText d overrides p.name).isSome ↔ p.name ∈ overrides.map (·.name) := by
    constructor
    · intro some
      by_contra absent
      have none := lastOverride_eq_none_iff.mpr absent
      rw [givenText, none] at some
      cases some
    · exact givenText_isSome valued
  by_cases used : p.name ∈ front.map (·.name)
  · simp [used]
  · simp only [used, ↓reduceIte, named, not_false_eq_true, and_true]

/-- The step of a declaration ends well exactly if the declaration has a text. -/
theorem declaredStep_isOk_iff (start : ∀ name, given.get? name = givenText d overrides name)
    (run : front.foldlM (declaredStep d) (.empty, given) = .ok (resolved, rest)) :
    (∃ after, declaredStep d (resolved, rest) p = .ok after) ↔
      (settledText d overrides front p).isSome := by
  rw [← settledText_eq start run, Option.isSome_iff_exists]
  simp only [declaredStep_eq_ok, resolveDeclared_eq_ok]
  constructor
  · intro h
    obtain ⟨after, text, between, ⟨found, -⟩, -⟩ := h
    exact ⟨text, found⟩
  · intro h
    obtain ⟨text, found⟩ := h
    exact ⟨_, text, _, ⟨found, rfl⟩, rfl⟩

/-- All declarations of a list are resolved exactly if each has a text where it stands. -/
theorem resolved_iff_allSupplied (valued : ∀ p ∈ overrides, (p.text? d).isSome)
    (start : ∀ name, given.get? name = givenText d overrides name) {declared : List Param} :
    (∃ after, declared.foldlM (declaredStep d) (.empty, given) = .ok after) ↔
      AllSupplied d overrides declared := by
  constructor
  · intro h front p back split
    obtain ⟨after, run⟩ := h
    rw [split, List.foldlM_append, bind_eq_ok] at run
    obtain ⟨⟨resolved, rest⟩, first, others⟩ := run
    rw [List.foldlM_cons, bind_eq_ok] at others
    obtain ⟨next, here, -⟩ := others
    have some := (declaredStep_isOk_iff start first).mp ⟨next, here⟩
    exact (settledText_isSome_iff valued).mp some
  · intro supplied
    cases run : declared.foldlM (declaredStep d) (.empty, given) with
    | ok after => exact ⟨after, rfl⟩
    | error cause =>
        obtain ⟨front, p, back, ⟨resolved, rest⟩, split, first, failed⟩ := foldlM_eq_error.mp run
        have some := (settledText_isSome_iff valued).mpr (supplied front p back split)
        obtain ⟨after, here⟩ := (declaredStep_isOk_iff start first).mpr some
        rw [failed] at here
        cases here

end Declarations

/-! ### Merged parameters -/

section Merged
variable {d : Dialect} {overrides declared : List Param}

theorem resolveParams_isOk_iff (valued : ∀ p ∈ overrides, (p.text? d).isSome) :
    (∃ merged, resolveParams d overrides declared = .ok merged) ↔
      AllSupplied d overrides declared := by
  obtain ⟨given, table, start⟩ := overrideTable_isOk valued
  rw [← resolved_iff_allSupplied valued start]
  simp only [resolveParams_eq_declaredStep, bind_eq_ok, pure_eq_ok, table, Except.ok.injEq,
    exists_eq_left']
  constructor
  · intro h
    obtain ⟨merged, state, run, -⟩ := h
    exact ⟨state, run⟩
  · intro h
    obtain ⟨state, run⟩ := h
    exact ⟨_, state, run, rfl⟩

/-- A missing parameter is a declaration without a default whose override is used up or was never
given, behind declarations that all have a text. -/
theorem resolveParams_eq_missing_iff (valued : ∀ p ∈ overrides, (p.text? d).isSome)
    {name : String} :
    resolveParams d overrides declared = .error (.missingParameter name) ↔
      ∃ front p back, declared = front ++ p :: back ∧ AllSupplied d overrides front ∧
        p.name = name ∧ p.value = none ∧
          (name ∈ overrides.map (·.name) → name ∈ front.map (·.name)) := by
  obtain ⟨given, table, start⟩ := overrideTable_isOk valued
  have fold : resolveParams d overrides declared = .error (.missingParameter name) ↔
      declared.foldlM (declaredStep d) (.empty, given) = .error (.missingParameter name) := by
    rw [resolveParams_eq_declaredStep, table]
    change (declared.foldlM (declaredStep d) (.empty, given) >>= _) = _ ↔ _
    rw [bind_eq_error]
    constructor
    · intro h
      rcases h with failed | ⟨state, -, stored⟩
      · exact failed
      · cases stored
    · exact .inl
  rw [fold, foldlM_eq_error]
  constructor
  · intro h
    obtain ⟨front, p, back, ⟨resolved, rest⟩, split, first, failed⟩ := h
    have supplied := (resolved_iff_allSupplied valued start).mp ⟨_, first⟩
    obtain ⟨gone, reason⟩ := resolveDeclared_eq_error.mp (declaredStep_eq_error.mp failed)
    rcases reason with ⟨none, same⟩ | ⟨value, -, invalid⟩
    · have named : p.name = name := (Cause.missingParameter.inj same).symm
      refine ⟨front, p, back, split, supplied, named, none, ?_⟩
      intro overridden
      by_contra unused
      rw [(resolves_of_fold first).left, named, if_neg unused, start] at gone
      have some := givenText_isSome valued overridden
      rw [gone] at some
      cases some
    · exact absurd invalid paramText_ne_missing
  · intro h
    obtain ⟨front, p, back, split, supplied, rfl, none, used⟩ := h
    obtain ⟨⟨resolved, rest⟩, first⟩ := (resolved_iff_allSupplied valued start).mpr supplied
    refine ⟨front, p, back, (resolved, rest), split, first, ?_⟩
    rw [declaredStep_eq_error, resolveDeclared_eq_error]
    refine ⟨?_, .inl ⟨none, rfl⟩⟩
    rw [(resolves_of_fold first).left]
    by_cases here : p.name ∈ front.map (·.name)
    · rw [if_pos here]
    · have absent : p.name ∉ overrides.map (·.name) := mt used here
      rw [if_neg here, start, givenText, lastOverride_eq_none_iff.mpr absent]
      rfl

/-- The last declaration of a name decides about it. -/
theorem get?_of_lastDeclared {merged : ResolvedParams}
    (h : resolveParams d overrides declared = .ok merged) {front back : List Param} {p : Param}
    (split : declared = front ++ p :: back) (last : p.name ∉ back.map (·.name)) :
    merged.table.get? p.name = settledText d overrides front p ∧
      (settledText d overrides front p).isSome := by
  simp only [resolveParams_eq_declaredStep, bind_eq_ok, pure_eq_ok, Prod.exists] at h
  obtain ⟨given, table, after, left, run, rfl⟩ := h
  have start : ∀ name, given.get? name = givenText d overrides name := by
    intro name
    have found := (overridden_of_fold table).found name
    rw [found]
    exact Option.or_none
  have distinct := (overridden_of_fold table).distinct List.nodup_nil
  have whole := resolves_of_fold run
  rw [split, List.foldlM_append, bind_eq_ok] at run
  obtain ⟨⟨resolved, rest⟩, first, others⟩ := run
  rw [List.foldlM_cons, bind_eq_ok] at others
  obtain ⟨next, here, others⟩ := others
  obtain ⟨text, between, one, rfl⟩ := declaredStep_eq_ok.mp here
  have settled : settledText d overrides front p = some text := by
    rw [← settledText_eq start first]
    exact (resolveDeclared_eq_ok.mp one).1
  have gone : left.get? p.name = none := by
    rw [whole.left, if_pos]
    simp [split]
  have kept := (resolves_of_fold others).kept p.name last
  rw [get?_foldl_set _ (whole.remain distinct), settled]
  change (left.get? p.name).or (after.get? p.name) = some text ∧ _
  rw [gone, kept, ParamTable.get?_set, if_pos rfl]
  exact ⟨rfl, rfl⟩

/-- The default of the last declaration of a name. -/
def defaultText (d : Dialect) (declared : List Param) (name : String) : Option ValueText :=
  givenText d declared name

/-- What a resolved name that is declared gets: the override, if there is one declaration only, or
else the default of the last declaration. -/
theorem get?_of_declared {merged : ResolvedParams}
    (h : resolveParams d overrides declared = .ok merged) {name : String}
    (mem : name ∈ declared.map (·.name)) :
    merged.table.get? name = (if (declared.map (·.name)).count name ≤ 1 then
        givenText d overrides name else none).or (defaultText d declared name) ∧
      (merged.table.get? name).isSome := by
  cases last : lastOverride declared name with
  | none => exact absurd mem (lastOverride_eq_none_iff.mp last)
  | some p =>
      obtain ⟨rfl, front, back, split, others⟩ := lastOverride_eq_some_iff.mp last
      obtain ⟨found, some⟩ := get?_of_lastDeclared h split others
      have default : defaultText d declared p.name = p.text? d := by
        rw [defaultText, givenText, last, Option.bind_some]
      have behind : (back.map (·.name)).count p.name = 0 := List.count_eq_zero.mpr others
      have count :
          (declared.map (·.name)).count p.name = (front.map (·.name)).count p.name + 1 := by
        rw [split, List.map_append, List.map_cons, List.count_append, List.count_cons_self, behind]
      have once : (declared.map (·.name)).count p.name ≤ 1 ↔ p.name ∉ front.map (·.name) := by
        rw [count, ← List.count_eq_zero]
        omega
      rw [found]
      refine ⟨?_, some⟩
      rw [default, settledText]
      by_cases used : p.name ∈ front.map (·.name)
      · rw [if_pos used, if_neg (mt once.mp (not_not_intro used))]
      · rw [if_neg used, if_pos (once.mpr used)]

end Merged

/-- The last override of a name counts exactly where the name is not declared a second time or the
override says what the last declaration says anyway. Names without an override get the default of
their last declaration. Nothing is missing exactly where every declaration has a default or is the
first one of a name with an override, and what is missing is the first one of which this is not
true. -/
theorem last_override_counts_iff {d : Dialect} {overrides declared : List Param}
    (valued : ∀ p ∈ overrides, (p.text? d).isSome) :
    ((∃ merged, resolveParams d overrides declared = .ok merged) ↔
      AllSupplied d overrides declared) ∧
    (∀ merged, resolveParams d overrides declared = .ok merged → ∀ name,
      (name ∈ overrides.map (·.name) → (givenText d overrides name).isSome ∧
        (merged.table.get? name = givenText d overrides name ↔
          (declared.map (·.name)).count name ≤ 1 ∨
            defaultText d declared name = givenText d overrides name)) ∧
      (name ∈ declared.map (·.name) → name ∉ overrides.map (·.name) →
        (defaultText d declared name).isSome ∧
          merged.table.get? name = defaultText d declared name)) ∧
    ∀ name, resolveParams d overrides declared = .error (.missingParameter name) ↔
      ∃ front p back, declared = front ++ p :: back ∧ AllSupplied d overrides front ∧
        p.name = name ∧ p.value = none ∧
          (name ∈ overrides.map (·.name) → name ∈ front.map (·.name)) := by
  refine ⟨resolveParams_isOk_iff valued, ?_, fun name => resolveParams_eq_missing_iff valued⟩
  intro merged h name
  constructor
  · intro overridden
    have some := givenText_isSome valued overridden
    refine ⟨some, ?_⟩
    by_cases known : name ∈ declared.map (·.name)
    · obtain ⟨found, -⟩ := get?_of_declared h known
      rw [found]
      by_cases once : (declared.map (·.name)).count name ≤ 1
      · obtain ⟨text, given⟩ := Option.isSome_iff_exists.mp some
        simp [once, given]
      · simp [once]
    · have never : (declared.map (·.name)).count name ≤ 1 := by
        rw [List.count_eq_zero.mpr known]
        omega
      have passed := (merged_of_resolveParams h).passed name known
      simp [passed, never]
  · intro known absent
    obtain ⟨found, some⟩ := get?_of_declared h known
    have none : givenText d overrides name = none := by
      rw [givenText, lastOverride_eq_none_iff.mpr absent]
      rfl
    rw [none, ite_self, Option.none_or] at found
    rw [found] at some
    exact ⟨some, found⟩

/-- Two values for a declared name, around one for a name that is not declared. -/
def tripleOverrides : List Param :=
  [.withValue "r" (.int 4), .withValue "x" (.int 7), .withValue "r" (.int 5)]

def twoDeclared : List Param :=
  [.withValue "r" (.int 1), .withValue "l" (.int 2)]

theorem last_override_counts_once :
    ∃ merged, resolveParams .spice tripleOverrides twoDeclared = .ok merged ∧
      merged.table.get? "r" = some { text := "5" } ∧
      merged.table.get? "x" = some { text := "7" } ∧
      merged.table.get? "l" = some { text := "2" } := by
  have valued : ∀ p ∈ tripleOverrides, (p.text? .spice).isSome := by decide +kernel
  have written : resolveParams .spice tripleOverrides twoDeclared = .ok _ := rfl
  have values := (last_override_counts_iff valued).2.1 _ written
  have r := ((values "r").1 (by decide)).2.mpr (.inl (by decide))
  have x := ((values "x").1 (by decide)).2.mpr (.inl (by decide))
  have l := ((values "l").2 (by decide) (by decide)).2
  exact ⟨_, written, r, x, l⟩

/-- Of two declarations of one name the second one loses the override, or misses it. -/
theorem last_override_counts_repeated :
    (∃ merged, resolveParams .spice [.withValue "r" (.int 5)]
        [.withValue "r" (.int 1), .withValue "r" (.int 2)] = .ok merged ∧
      givenText .spice [.withValue "r" (.int 5)] "r" = some { text := "5" } ∧
      merged.table.get? "r" = some { text := "2" }) ∧
    resolveParams .spice [.withValue "r" (.int 5)] [.required "r", .required "r"]
      = .error (.missingParameter "r") := by
  refine ⟨⟨_, rfl, rfl, rfl⟩, rfl⟩

end CircuitNetlist
