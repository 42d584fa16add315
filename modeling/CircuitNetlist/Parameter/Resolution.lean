import CircuitNetlist.Parameter.Table

/-!
# Resolving parameters

The parameters of an instance are its overrides merged with what the target declares. Declared
parameters come first, in declared order, each with its override or else its default; overrides
that the target does not declare follow in their own order.
-/
namespace CircuitNetlist

/-- The overrides as a table; of several for one name the last one counts, at the first one's
place. -/
def overrideTable (d : Dialect) (overrides : List Param) : Except Cause ParamTable :=
  overrides.foldlM (fun table p =>
    match p.value with
    | none => throw (.invalidValue p.name .overrideWithoutValue)
    | some value => do return table.set p.name (← paramText d p.name value)) .empty

/-- One declared parameter: its override, which is used up, or its default. -/
def resolveDeclared (d : Dialect) (given : ParamTable) (declared : Param) :
    Except Cause (ValueText × ParamTable) :=
  match given.get? declared.name with
  | some text => .ok (text, given.erase declared.name)
  | none =>
    match declared.value with
    | some value => do return (← paramText d declared.name value, given)
    | none => throw (.missingParameter declared.name)

/-- The parameters of an instance, and which of its overrides the target does not declare. -/
structure ResolvedParams where
  table : ParamTable
  undeclared : List String
deriving DecidableEq, Repr

/-- Resolves the declared parameters in order; what is left of the overrides comes last. -/
def resolveParams (d : Dialect) (overrides declared : List Param) :
    Except Cause ResolvedParams := do
  let given ← overrideTable d overrides
  let (resolved, rest) ← declared.foldlM (fun (resolved, given) p => do
    let (text, given) ← resolveDeclared d given p
    return (resolved.set p.name text, given)) (ParamTable.empty, given)
  let table := rest.entries.foldl (fun table entry => table.set entry.1 entry.2) resolved
  return { table, undeclared := rest.names }

/-- `name=default` for every declared parameter, where the dialect asks for defaults. -/
def declarations (d : Dialect) (declared : List Param) : Except Cause (List String) :=
  declared.mapM fun p =>
    match p.value with
    | none => throw (.missingDefault p.name)
    | some value => do return p.name ++ "=" ++ (← paramText d p.name value).render d

end CircuitNetlist
