import CircuitNetlist.Proofs.CallsOfScripts
import CircuitNetlist.Proofs.WrittenNetlists

/-!
# Distinct netlist names

Modules and external subcircuits share one table of names and hold a name each, the models share
another. So names are distinct after any calls, as a name has one holder, and stay so through failed
calls, which leave nothing behind. A package that ends well has all of its modules among the
holders, and every definition that it writes starts with the name that its module holds.
-/
namespace CircuitNetlist

open Script Scope

/-- No two modules or external subcircuits have one netlist name, and no two models have. -/
structure DistinctNames (modules : List Module) (externals : List ExternalModule) : Prop where
  subcircuits : (modules.map (fun m => sanitize m.name) ++
    (externals.filter (·.kind = .subcircuit)).map fun m => sanitize m.name.name).Nodup
  models : ((externals.filter (·.kind ≠ .subcircuit)).map fun m => m.name.name).Nodup

/-- The order of modules is of no account. -/
theorem DistinctNames.of_perm {modules modules' : List Module}
    {externals externals' : List ExternalModule} (h : DistinctNames modules externals)
    (same : modules.Perm modules') (same' : externals.Perm externals') :
    DistinctNames modules' externals' := by
  refine ⟨?_, ?_⟩
  · have all := (same.map fun m => sanitize m.name).append
      ((same'.filter (·.kind = .subcircuit)).map fun m => sanitize m.name.name)
    exact all.nodup_iff.mp h.subcircuits
  · have all := (same'.filter (·.kind ≠ .subcircuit)).map fun m => m.name.name
    exact all.nodup_iff.mp h.models

namespace Scope

/-! ### Names in a scope -/

/-- External modules are distinct holders, whichever of them. -/
theorem InOrder.nodup_owners {s : Scope} (h : s.InOrder) (p : ExternalModule → Bool) :
    ((s.externals.filter p).map fun m => NameOwner.external m.name).Nodup := by
  have names : ((s.externals.filter p).map (·.name)).Nodup :=
    h.externalNames.sublist (List.filter_sublist.map _)
  have owners := names.map (f := NameOwner.external) (by intro a b; simp)
  rwa [List.map_map] at owners

theorem InOrder.distinctNames {s : Scope} (h : s.InOrder) :
    DistinctNames s.modules s.externals := by
  have held : ∀ m ∈ s.externals.filter (·.kind = .subcircuit),
      s.subcircuits.owner? (sanitize m.name.name) = some (.external m.name) := by
    intro m mem
    obtain ⟨mem, kind⟩ := List.mem_filter.mp mem
    have owner := h.externalsHeld m mem
    simpa [owner?, ExternalModule.netlistName, of_decide_eq_true kind] using owner
  have held' : ∀ m ∈ s.externals.filter (·.kind ≠ .subcircuit),
      s.models.owner? m.name.name = some (.external m.name) := by
    intro m mem
    obtain ⟨mem, kind⟩ := List.mem_filter.mp mem
    have owner := h.externalsHeld m mem
    simpa [owner?, ExternalModule.netlistName, of_decide_eq_true kind] using owner
  refine ⟨?_, NameTable.nodup_of_held (h.nodup_owners _) held'⟩
  have externals := NameTable.nodup_of_held (h.nodup_owners _) held
  refine List.nodup_append.mpr ⟨h.toConsistent.netlistNames, externals, ?_⟩
  intro name one name' other same
  obtain ⟨m, mem, rfl⟩ := List.mem_map.mp one
  obtain ⟨e, mem', rfl⟩ := List.mem_map.mp other
  -- a module and an external module are never one holder
  have owner := h.held m mem
  rw [same, held e mem'] at owner
  simp at owner

/-- After any calls, what they have defined and registered has distinct names. -/
theorem distinctNames_history (calls : List Call) :
    DistinctNames (empty.history calls).defined (empty.history calls).registered := by
  have known := inOrder_empty.known_run calls
  have names := (inOrder_empty.run calls).distinctNames
  rw [known.1, known.2] at names
  apply names.of_perm
  · simp [empty]
  · simp [empty]

end Scope

/-! ### The modules of a package -/

/-- Of the calls that a package makes, one for each module defines it. -/
theorem Package.modules_calls (p : Package) : p.calls.filterMap Call.module? = p.modules := by
  have none : ∀ is : List Instance,
      (is.flatMap fun i => [Call.resolve i.reference]).filterMap Call.module? = [] := by
    intro is
    induction is with
    | nil => rfl
    | cons i is ih => exact ih
  have registering : ∀ ms : List ExternalModule,
      (ms.flatMap fun m => [Call.register m]).filterMap Call.module? = [] := by
    intro ms
    induction ms with
    | nil => rfl
    | cons m ms ih => exact ih
  rw [calls, List.filterMap_append, registering, List.nil_append]
  induction p.modules with
  | nil => rfl
  | cons m ms ih =>
      rw [List.flatMap_cons, List.filterMap_append, ih, Module.calls, List.filterMap_cons, none]
      rfl

theorem Package.externals_calls (p : Package) :
    p.calls.filterMap Call.external? = p.externals := by
  have none : ∀ ms : List Module, (ms.flatMap Module.calls).filterMap Call.external? = [] := by
    intro ms
    rw [List.filterMap_eq_nil_iff]
    intro c mem
    obtain ⟨m, -, mem⟩ := List.mem_flatMap.mp mem
    rcases List.mem_cons.mp mem with rfl | mem
    · rfl
    · obtain ⟨i, -, mem⟩ := List.mem_flatMap.mp mem
      rw [List.mem_singleton.mp mem]
      rfl
  rw [calls, List.filterMap_append, none, List.append_nil]
  induction p.externals with
  | nil => rfl
  | cons m ms ih => exact congrArg (m :: ·) ih

/-! ### Names in the text -/

def Family.definitionKeyword : Family → String
  | .spice => ".SUBCKT "
  | .spectre => "subckt "
  | .verilog => "module "

/-- The first line of a definition has the name of the module. -/
def Module.headline (d : Dialect) (m : Module) : Line :=
  .text 0 (d.family.definitionKeyword ++ sanitize m.name)

theorem Module.headline_of_written {d : Dialect} {m : Module} {s inner after : Scope}
    {name : String} {t : SignalTable} {opening body : List Line}
    (w : m.Written d s inner name t opening body after) :
    ∃ rest, opening = m.headline d :: rest := by
  have opened := w.opened
  have named := (define_eq_ok.mp w.defined).1
  unfold openingLines at opened
  unfold headline
  rw [named] at opened
  cases family : d.family with
  | spice =>
      simp only [family, bind_eq_ok, pure_eq_ok] at opened
      obtain ⟨parameters, -, rfl⟩ := opened
      exact ⟨_, rfl⟩
  | spectre =>
      simp only [family, bind_eq_ok, pure_eq_ok] at opened
      obtain ⟨parameters, -, rfl⟩ := opened
      exact ⟨_, rfl⟩
  | verilog =>
      simp only [family, bind_eq_ok, pure_eq_ok] at opened
      obtain ⟨parameters, -, ports, -, rfl⟩ := opened
      exact ⟨_, rfl⟩

/-- The definitions stand in the text in the order of the modules. -/
theorem Module.headlines_of_writes {d : Dialect} {ms : List Module} {s after : Scope}
    {body : List Line} (run : (ms.foldlM (Module.script d) s).Writes body after) :
    (ms.map (headline d)).Sublist body := by
  induction ms generalizing s body with
  | nil => exact List.nil_sublist _
  | cons m ms ih =>
      obtain ⟨between, first, rest, here, later, rfl⟩ := writes_foldlM_cons.mp run
      obtain ⟨inner, name, t, opening, inside, w, rfl⟩ := writes_script.mp here
      obtain ⟨others, rfl⟩ := headline_of_written w
      have mine : [m.headline d].Sublist
          (m.headline d :: others ++ inside ++ m.closingLines d name) := by
        simp
      exact mine.append (ih later)

/-- After any calls, failed ones among them, the names of what has been defined and registered are
distinct, and a failed call is as if it had not been made. A package that is then written well adds
to the names that are distinct, and its definitions start with them. A session goes on from the
calls that its write has made, also where the write fails. -/
theorem netlist_names_distinct (calls : List Call) :
    let s := empty.run calls
    let h := empty.history calls
    DistinctNames h.defined h.registered ∧
    (∀ failed cause, (s.reply failed).1 = .error cause → ∀ later,
      s.run (failed :: later) = s.run later ∧
      s.history (failed :: later) = (failed, .error cause) :: s.history later) ∧
    (∀ (d : Dialect) (options : Options) (p : Package) (after : Scope),
      (p.script d options s).result = .ok after →
        DistinctNames (h.defined ++ p.modules) (h.registered ++ p.externals) ∧
        (p.modules.map (Module.headline d)).Sublist (p.script d options s).lines) ∧
    ∀ (session : Session) (p : Package), session.scope = s →
      ∃ made, made <+: p.calls ∧
        (session.writePackage p).2.scope = empty.run (calls ++ made) := by
  intro s h
  refine ⟨distinctNames_history calls, ?_, ?_, ?_⟩
  · intro failed cause refused later
    have same : s.after failed = s := reply_unchanged (Prod.ext refused rfl)
    rw [run_cons, history, same, refused]
    exact ⟨rfl, rfl⟩
  · intro d options p after ok
    obtain ⟨-, -, answered⟩ := (p.makes_script d options s).finished after ok
    have names := distinctNames_history (calls ++ p.calls)
    rw [history_append, History.defined_append, History.registered_append] at names
    have defined : (s.history p.calls).defined = p.modules := by
      rw [History.defined, answered, p.modules_calls]
    have registered : (s.history p.calls).registered = p.externals := by
      rw [History.registered, answered, p.externals_calls]
    rw [defined, registered] at names
    obtain ⟨_, body, -, modules, lines⟩ := Package.writes_script.mp (writes_of_result ok)
    refine ⟨names, ?_⟩
    rw [lines]
    exact (Module.headlines_of_writes modules).trans (List.sublist_append_right _ _)
  · intro session p here
    have makes := p.makes_script session.dialect session.options session.scope
    obtain ⟨made, first, last⟩ := session.scope_run makes
    refine ⟨made, first, ?_⟩
    rw [run_append, ← show session.scope = empty.run calls from here]
    exact last

/-- Two spellings of one netlist name, `inv_1`, and a package without it. -/
def inverter : Module := { name := "lib.inv-1" }

def inverterCell : ExternalModule := { name := ⟨"pdk", "inv_1"⟩ }

def bufferOnly : Package := { modules := [{ name := "buf" }] }

theorem netlist_names_distinct_spellings :
    (∀ later, (empty.run [.define inverter]).run (.register inverterCell :: later)
      = (empty.run [.define inverter]).run later) ∧
    ∃ after, (bufferOnly.script .spice {} (empty.run [.define inverter])).result = .ok after ∧
      DistinctNames ([inverter] ++ bufferOnly.modules) ([] ++ bufferOnly.externals) := by
  have all := netlist_names_distinct [.define inverter]
  have refused : ((empty.run [.define inverter]).reply (.register inverterCell)).1
      = .error (.nameConflict .subcircuit "inv_1" (.internal "lib.inv-1")
          (.external ⟨"pdk", "inv_1"⟩)) := rfl
  have written : (bufferOnly.script .spice {} (empty.run [.define inverter])).result = .ok _ := rfl
  refine ⟨?_, _, written, ?_⟩
  · intro later
    exact (all.2.1 _ _ refused later).1
  · exact (all.2.2.1 .spice {} bufferOnly _ written).1

end CircuitNetlist
