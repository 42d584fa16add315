import Mathlib.Logic.Relation
import CircuitNetlist.Proofs.WrittenNetlists

/-!
# The order of modules

In a netlist that ends well, an instance of a module of the package stands behind the first line
of that module's definition. So instances refer to earlier modules or to the very module they
stand in, and the hierarchy of subcircuits is free of cycles exactly if no module has an
instance of itself.
-/
namespace CircuitNetlist

open Script

namespace Package

/-- The module at the first place has an instance of the module at the second. -/
def Instantiates (p : Package) (k j : Nat) : Prop :=
  ∃ m n, p.modules[k]? = some m ∧ p.modules[j]? = some n ∧
    ∃ i ∈ m.instances, i.reference = .internal n.name

end Package

/-- Some instance in the module is one of the module itself. -/
def Module.InstantiatesItself (m : Module) : Prop :=
  ∃ i ∈ m.instances, i.reference = .internal m.name

namespace Package
variable {d : Dialect} {options : Options} {p : Package} {ls : List Line} {scope : Scope}

/-- The modules of a written package have distinct names, as their netlist names are. -/
theorem distinct_of_writes (run : (p.script d options .empty).Writes ls scope) :
    (p.modules.map (·.name)).Nodup ∧ (p.modules.map fun m => sanitize m.name).Nodup := by
  obtain ⟨registered, body, externals, modules, -⟩ := writes_script.mp run
  have kept := Scope.keeps_of_registered externals
  have known := Module.modules_of_writes modules
  have consistent := Module.consistent_of_writes (Scope.consistent_empty.of_keeps kept) modules
  rw [kept.modules] at known
  change scope.modules = p.modules.reverse ++ [] at known
  rw [List.append_nil] at known
  have names := consistent.names
  have netlistNames := consistent.netlistNames
  rw [known, List.map_reverse, List.nodup_reverse] at names netlistNames
  exact ⟨names, netlistNames⟩

theorem le_of_instantiates (run : (p.script d options .empty).Writes ls scope) {k j : Nat}
    (h : p.Instantiates k j) : j ≤ k := by
  obtain ⟨m, n, here, there, i, mem, refers⟩ := h
  obtain ⟨j', n', before, place, named, -⟩ := written_reference run here mem refers
  have distinct := (distinct_of_writes run).1
  have first : (p.modules.map (·.name))[j']? = some n.name := by
    rw [List.getElem?_map, place, Option.map_some, named]
  have second : (p.modules.map (·.name))[j]? = some n.name := by
    rw [List.getElem?_map, there, Option.map_some]
  obtain ⟨hj, eq⟩ := List.getElem?_eq_some_iff.mp second
  obtain ⟨hj', eq'⟩ := List.getElem?_eq_some_iff.mp first
  have same : j' = j := (distinct.getElem_inj_iff).mp (eq'.trans eq.symm)
  omega

theorem instantiates_self_iff {k : Nat} :
    p.Instantiates k k ↔ ∃ m, p.modules[k]? = some m ∧ m.InstantiatesItself := by
  constructor
  · intro h
    obtain ⟨m, n, here, there, instances⟩ := h
    rw [here] at there
    obtain rfl := Option.some.inj there
    exact ⟨m, here, instances⟩
  · intro h
    obtain ⟨m, here, instances⟩ := h
    exact ⟨m, m, here, here, instances⟩

/-- A way through instances never leads to a later module. -/
theorem le_of_transGen (run : (p.script d options .empty).Writes ls scope) {k j : Nat}
    (way : Relation.TransGen p.Instantiates k j) : j ≤ k := by
  induction way with
  | single one => exact le_of_instantiates run one
  | tail _ last ih => exact Nat.le_trans (le_of_instantiates run last) ih

/-- So one that comes back has never left. -/
theorem transGen_self_iff (run : (p.script d options .empty).Writes ls scope) {k : Nat} :
    Relation.TransGen p.Instantiates k k ↔ p.Instantiates k k := by
  constructor
  · intro way
    cases way with
    | single one => exact one
    | tail way last =>
        have there := le_of_transGen run way
        have back := le_of_instantiates run last
        rw [Nat.le_antisymm there back] at last
        exact last
  · intro one
    exact .single one

/-- In a written package every reference to a module is one to the module itself or to an earlier
one; all are to earlier ones, and there is no cycle of instances, exactly where no module has an
instance of itself. -/
theorem references_point_back {d : Dialect} {options : Options} {p : Package} {scope : Scope}
    (written : (p.script d options .empty).result = .ok scope) :
    ((p.modules.map (·.name)).Nodup ∧ (p.modules.map fun m => sanitize m.name).Nodup) ∧
    (∀ (k : Nat) (m : Module), p.modules[k]? = some m → ∀ i ∈ m.instances, ∀ name,
      i.reference = .internal name →
        ∃ (j : Nat) (n : Module), j ≤ k ∧ p.modules[j]? = some n ∧ n.name = name) ∧
    ((∀ k j, p.Instantiates k j → j < k) ↔ ∀ m ∈ p.modules, ¬ m.InstantiatesItself) ∧
    ∀ k : Nat, Relation.TransGen p.Instantiates k k ↔
      ∃ m, p.modules[k]? = some m ∧ m.InstantiatesItself := by
  have run := writes_of_result written
  refine ⟨distinct_of_writes run, ?_, ?_, ?_⟩
  · intro k m place i mem name refers
    obtain ⟨j, n, before, there, named, -⟩ := written_reference run place mem refers
    exact ⟨j, n, before, there, named⟩
  · constructor
    · intro earlier m mem itself
      obtain ⟨k, place⟩ := List.getElem?_of_mem mem
      have here := instantiates_self_iff.mpr ⟨m, place, itself⟩
      exact Nat.lt_irrefl k (earlier k k here)
    · intro spared k j h
      have before := le_of_instantiates run h
      have other : j ≠ k := by
        intro same
        rw [same] at h
        obtain ⟨m, place, itself⟩ := instantiates_self_iff.mp h
        exact spared m (List.mem_of_getElem? place) itself
      omega
  · intro k
    rw [transGen_self_iff run, instantiates_self_iff]

/-- A module with an instance of an earlier one. -/
def leafAndTop : Package :=
  { modules := [{ name := "leaf" },
      { name := "top", instances := [{ name := "0", reference := .internal "leaf" }] }] }

theorem references_point_back_leaf :
    ∃ scope, (leafAndTop.script .spice {} .empty).result = .ok scope ∧
      ¬ Relation.TransGen leafAndTop.Instantiates 1 1 := by
  have written : (leafAndTop.script .spice {} .empty).result = .ok _ := rfl
  have cycles := (references_point_back written).2.2.2 1
  refine ⟨_, written, ?_⟩
  rw [cycles]
  intro h
  obtain ⟨m, place, i, mem, refers⟩ := h
  obtain rfl := Option.some.inj place
  obtain rfl := List.mem_singleton.mp mem
  simp at refers

/-- A module with an instance of itself. -/
def recursive : Package :=
  { modules := [{ name := "m", instances := [{ name := "0", reference := .internal "m" }] }] }

/-- It is written all the same. -/
theorem references_point_back_recursive :
    ∃ scope, (recursive.script .spice {} .empty).result = .ok scope ∧
      recursive.Instantiates 0 0 := by
  refine ⟨_, rfl, ?_⟩
  exact ⟨_, _, rfl, rfl, _, List.mem_singleton_self _, rfl⟩

end Package

end CircuitNetlist
