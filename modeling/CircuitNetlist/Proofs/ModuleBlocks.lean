import CircuitNetlist.Proofs.AcceptedRuns
import CircuitNetlist.Proofs.Interfaces
import CircuitNetlist.Proofs.NetlistNames

/-!
# Blocks of modules

All modules of a package are written by one session, whose scope grows from one to the next. What
they find in it are the interfaces that the package shows, and these are the same at any time. So
the text of a package is its header and one block for every module, and a block changes with nothing
but the module itself and the interfaces of what its instances refer to.
-/
namespace CircuitNetlist

open Script

/-- Nothing is known in the scope but what the package has. -/
structure Package.Knows (p : Package) (s : Scope) : Prop where
  order : s.InOrder
  modules : ∀ m ∈ s.modules, m ∈ p.modules
  externals : ∀ m ∈ s.externals, m ∈ p.externals

namespace Package
variable {p : Package} {s after : Scope} {d : Dialect}

theorem knows_empty (p : Package) : p.Knows .empty :=
  ⟨Scope.inOrder_empty, by simp [Scope.empty], by simp [Scope.empty]⟩

theorem Knows.register {m : ExternalModule} (h : p.Knows s) (mem : m ∈ p.externals)
    (registered : s.register m = (.ok (), after)) : p.Knows after := by
  refine ⟨h.order.register registered, ?_, ?_⟩
  · rw [(Scope.keeps_of_register registered).modules]
    exact h.modules
  · obtain ⟨-, name, claimed, one, rfl⟩ := Scope.register_eq_ok.mp registered
    refine List.forall_mem_cons.mpr ⟨mem, ?_⟩
    rw [(Scope.claimed_of_claimExternal one).externals]
    exact h.externals

theorem Knows.define {m : Module} {name : String} (h : p.Knows s) (mem : m ∈ p.modules)
    (defined : s.define m = (.ok name, after)) : p.Knows after := by
  have order := h.order.define defined
  obtain ⟨-, -, table, -, rfl⟩ := Scope.define_eq_ok.mp defined
  exact ⟨order, List.forall_mem_cons.mpr ⟨mem, h.modules⟩, h.externals⟩

theorem Knows.registered {ms : List ExternalModule} (h : p.Knows s)
    (all : ∀ m ∈ ms, m ∈ p.externals) (run : ms.foldlM Scope.registered s = .ok after) :
    p.Knows after := by
  induction ms generalizing s with
  | nil =>
      rw [List.foldlM_nil, pure_eq_ok] at run
      exact run ▸ h
  | cons m ms ih =>
      rw [List.foldlM_cons, bind_eq_ok] at run
      obtain ⟨between, first, rest⟩ := run
      rw [List.forall_mem_cons] at all
      exact ih (h.register all.1 (Scope.registered_eq_ok.mp first)) all.2 rest

/-- The names of all modules and of all external modules are distinct. -/
structure Unambiguous (p : Package) : Prop where
  modules : (p.modules.map (·.name)).Nodup
  externals : (p.externals.map (·.name)).Nodup

theorem unambiguous_of_result {options : Options}
    (ok : (p.script d options .empty).result = .ok after) : p.Unambiguous := by
  obtain ⟨-, rfl, answered⟩ := (p.makes_script d options .empty).finished after ok
  have order := Scope.inOrder_empty.run p.calls
  obtain ⟨modules, externals⟩ := Scope.inOrder_empty.known_run p.calls
  have names := order.names
  have externalNames := order.externalNames
  rw [modules, Scope.History.defined, answered, p.modules_calls] at names
  rw [externals, Scope.History.registered, answered, p.externals_calls] at externalNames
  change ((p.modules.reverse ++ []).map _).Nodup at names
  change ((p.externals.reverse ++ []).map _).Nodup at externalNames
  rw [List.append_nil, List.map_reverse, List.nodup_reverse] at names externalNames
  exact ⟨names, externalNames⟩

/-! ### Blocks -/

/-- The instances of a module are written in one scope, each from the interface of what it refers
to. -/
theorem linesFrom_of_writes {t : SignalTable} {is : List Instance} {body : List Line}
    (clear : p.Unambiguous) (h : p.Knows s)
    (run : (Instance.scriptAll d t s is).Writes body after) :
    after = s ∧ ∃ faces inside, is.mapM (fun i => p.face i.reference) = .ok faces ∧
      (is.zip faces).mapM (fun pair => pair.1.linesFrom d t pair.2) = .ok inside ∧
      body = inside.flatten := by
  induction is generalizing body with
  | nil =>
      obtain ⟨rfl, rfl⟩ := writes_pure.mp run
      exact ⟨rfl, [], [], rfl, rfl, rfl⟩
  | cons i is ih =>
      obtain ⟨between, first, rest, here, later, rfl⟩ := writes_foldlM_cons.mp run
      obtain ⟨target, merged, bindings, w⟩ := Instance.writes_script.mp here
      obtain ⟨stands, rfl⟩ := h.order.resolve_eq_ok.mp w.resolved
      obtain ⟨rfl, faces, inside, found, lines, rfl⟩ := ih later
      have known := stands.mono h.modules h.externals
      refine ⟨rfl, target.interface :: faces, first :: inside, ?_, ?_, rfl⟩
      · simp only [List.mapM_cons, bind_eq_ok, pure_eq_ok]
        exact ⟨_, face_of_standsFor clear.modules clear.externals known, faces, found, rfl⟩
      · simp only [List.zip_cons_cons, List.mapM_cons, bind_eq_ok, pure_eq_ok]
        exact ⟨first, Instance.linesFrom_of_written known w, inside, lines, rfl⟩

theorem linesOf_of_writes {m : Module} {ls : List Line} (clear : p.Unambiguous) (h : p.Knows s)
    (mem : m ∈ p.modules) (run : (m.script d s).Writes ls after) :
    p.Knows after ∧ p.linesOf d m = .ok ls := by
  obtain ⟨inner, name, t, opening, body, w, rfl⟩ := Module.writes_script.mp run
  have inside := h.define mem w.defined
  obtain ⟨rfl, -⟩ := Scope.define_eq_ok.mp w.defined
  obtain ⟨rfl, faces, blocks, found, lines, rfl⟩ := linesFrom_of_writes clear inside w.instances
  refine ⟨inside, ?_⟩
  simp only [linesOf, Module.linesFrom, bind_eq_ok, pure_eq_ok]
  exact ⟨faces, found, t, w.table, opening, w.opened, blocks, lines, rfl⟩

theorem blocks_of_writes {ms : List Module} {body : List Line} (clear : p.Unambiguous)
    (h : p.Knows s) (all : ∀ m ∈ ms, m ∈ p.modules)
    (run : (ms.foldlM (Module.script d) s).Writes body after) :
    ∃ blocks, ms.mapM (p.linesOf d) = .ok blocks ∧ body = blocks.flatten := by
  induction ms generalizing s body with
  | nil =>
      obtain ⟨rfl, rfl⟩ := writes_pure.mp run
      exact ⟨[], rfl, rfl⟩
  | cons m ms ih =>
      rw [List.forall_mem_cons] at all
      obtain ⟨between, first, rest, here, later, rfl⟩ := writes_foldlM_cons.mp run
      obtain ⟨next, one⟩ := linesOf_of_writes clear h all.1 here
      obtain ⟨blocks, others, rfl⟩ := ih next all.2 later
      refine ⟨first :: blocks, ?_, rfl⟩
      simp only [List.mapM_cons, bind_eq_ok, pure_eq_ok]
      exact ⟨first, one, blocks, others, rfl⟩

/-- A written package is its header and one block for each module. -/
theorem lines_of_result {options : Options}
    (ok : (p.script d options .empty).result = .ok after) :
    ∃ blocks, p.modules.mapM (p.linesOf d) = .ok blocks ∧
      (p.script d options .empty).lines = p.headerLines d options ++ blocks.flatten := by
  obtain ⟨registered, body, externals, modules, lines⟩ := writes_script.mp (writes_of_result ok)
  have known := p.knows_empty.registered (fun _ mem => mem) externals
  obtain ⟨blocks, all, rfl⟩ :=
    blocks_of_writes (unambiguous_of_result ok) known (fun _ mem => mem) modules
  exact ⟨blocks, all, lines⟩

/-! ### Other modules -/

/-- Another module with the same interface shows nothing else to the rest of the package. -/
theorem linesOf_set {k : Nat} {m m' : Module} (place : p.modules[k]? = some m)
    (same : m'.interface = m.interface) :
    ({ p with modules := p.modules.set k m' } : Package).linesOf d = p.linesOf d := by
  have faces : ({ p with modules := p.modules.set k m' } : Package).interfaces = p.interfaces := by
    obtain ⟨hk, rfl⟩ := List.getElem?_eq_some_iff.mp place
    have shown : (p.modules.set k m').map Module.interface = p.modules.map Module.interface := by
      rw [List.map_set, same, ← List.getElem_map Module.interface (h := by simpa using hk),
        List.set_getElem_self]
    simp only [interfaces, shown]
  funext m
  apply linesOf_congr
  intro i _
  rw [face, face, faces]

/-- The part of a package's script up to its last module. -/
def frontScript (p : Package) (d : Dialect) (options : Options) (s : Scope) : Script Scope := do
  let registered ← p.externals.foldlM ExternalModule.script s
  writeAll (p.headerLines d options)
  p.modules.foldlM (Module.script d) registered

/-- What a package does behind its last module. -/
def endScript (p : Package) (d : Dialect) (s : Scope) : Script Scope := do
  flush
  log .info
    s!"wrote {p.modules.length} modules of package `{p.domain}` as {d.format.name}"
  return s

theorem script_eq (p : Package) (d : Dialect) (options : Options) (s : Scope) :
    p.script d options s = p.frontScript d options s >>= p.endScript d := by
  simp only [script, frontScript, bind_assoc]
  rfl

theorem frontScript_append (p : Package) (d : Dialect) (options : Options) (s : Scope)
    (more : List Module) :
    ({ p with modules := p.modules ++ more } : Package).frontScript d options s
      = p.frontScript d options s >>= fun s => more.foldlM (Module.script d) s := by
  simp only [frontScript, List.foldlM_append, bind_assoc]
  rfl

theorem lines_frontScript {options : Options}
    (ok : (p.script d options s).result = .ok after) :
    (p.frontScript d options s).lines = (p.script d options s).lines := by
  have written := writes_of_result ok
  rw [script_eq, writes_bind] at written
  obtain ⟨between, front, rest, first, last, all⟩ := written
  simp only [endScript, writes_flush_bind, writes_log_bind, writes_pure] at last
  rw [first.written, script_eq, all, last.1, List.append_nil]

end Package

/-- Whatever follows some events, it is written behind what these write, if they can be
performed. -/
theorem Session.content_of_continued {s : Session} {base : Nat} {events tail : List Event}
    (accepted : (s.play base (events ++ tail)).2 = none) (more : List Event) :
    ∃ rest, (s.play base (events ++ more)).1.sink.content = s.sink.content
      ++ (shown base s.options (events.filterMap Event.line?)).toUTF8 ++ rest := by
  rw [play_append] at accepted ⊢
  cases played : s.play base events with
  | mk next refused =>
      rw [played] at accepted
      cases refused with
      | some fault => cases accepted
      | none =>
          have front : (s.play base events).2 = none := by rw [played]
          have taken := took_of_played front
          rw [played] at taken
          obtain ⟨rest, grown⟩ := grows_play base next more
          refine ⟨rest, ?_⟩
          change (next.play base more).1.sink.content = _
          rw [grown.sink, taken.sink]

theorem Script.events_bind {α β : Type} (m : Script α) (f : α → Script β) :
    ∃ tail, (m >>= f).events = m.events ++ tail := by
  cases result : m.result with
  | error fault =>
      refine ⟨[], ?_⟩
      rw [bind_of_error result, List.append_nil]
  | ok a => exact ⟨_, congrArg Script.events (bind_of_ok result f)⟩

/-- The other places keep their results where a traversal has one other element. -/
theorem mapM_set_eq_ok {ε α β : Type} {f : α → Except ε β} {xs : List α} {ys ys' : List β} {k : Nat}
    {x : α} (hk : k < xs.length) (all : xs.mapM f = .ok ys)
    (other : (xs.set k x).mapM f = .ok ys') : ∃ y, f x = .ok y ∧ ys' = ys.set k y := by
  induction xs generalizing k ys ys' with
  | nil => exact absurd hk (Nat.not_lt_zero k)
  | cons x₀ xs ih =>
      simp only [List.mapM_cons, bind_eq_ok, pure_eq_ok] at all
      obtain ⟨y₀, first, rest, others, rfl⟩ := all
      cases k with
      | zero =>
          simp only [List.set_cons_zero, List.mapM_cons, bind_eq_ok, pure_eq_ok] at other
          obtain ⟨y, here, rest', others', rfl⟩ := other
          obtain rfl := Except.ok.inj (others.symm.trans others')
          exact ⟨y, here, rfl⟩
      | succ k =>
          simp only [List.set_cons_succ, List.mapM_cons, bind_eq_ok, pure_eq_ok] at other
          obtain ⟨y₁, first', rest', others', rfl⟩ := other
          obtain rfl := Except.ok.inj (first.symm.trans first')
          obtain ⟨y, here, rfl⟩ := ih (Nat.lt_of_succ_lt_succ hk) others others'
          exact ⟨y, here, rfl⟩

section Replies
variable {f : Format} {options : Options} {sink : Sink} {p : Package}

/-- The text of the blocks, behind the header. -/
def Package.blocksText (p : Package) (d : Dialect) (options : Options) (blocks : List (List Line)) :
    String :=
  Session.shown 0 options (p.headerLines d options)
    ++ String.join (blocks.map (Session.shown 0 options))

theorem shown_blocks (d : Dialect) (blocks : List (List Line)) :
    Session.shown 0 options (p.headerLines d options ++ blocks.flatten)
      = p.blocksText d options blocks := by
  rw [Session.shown_append, Session.shown_flatten, Package.blocksText]

/-- A package that is written well is written as its blocks. -/
theorem Package.text_of_reply {d : Dialect} (dialect : Dialect.ofFormat f = .ok d)
    (ok : ((Request.package p).reply f options sink).result = .ok ()) :
    ∃ blocks, p.modules.mapM (p.linesOf d) = .ok blocks ∧
      ((Request.package p).reply f options sink).text
        = sink.content ++ (p.blocksText d options blocks).toUTF8 := by
  obtain ⟨d', dialect', run⟩ := Request.run_of_reply ok
  obtain rfl := Except.ok.inj (dialect.symm.trans dialect')
  obtain ⟨after, ends⟩ := result_of_forget (Session.accepted_of_run run).2
  obtain ⟨blocks, all, lines⟩ := lines_of_result ends
  refine ⟨blocks, all, ?_⟩
  rw [Request.reply_of_dialect dialect, ← shown_blocks, ← lines]
  exact Session.content_of_run run

/-- A package is its header and one block for every module in order, and a block is the same
wherever the module finds the same interfaces behind the references of its instances. So a module
that is replaced by one of the same interface changes no block but its own, and modules that are
added change nothing in front of them. -/
theorem module_blocks_independent
    (written : ((Request.package p).reply f options sink).result = .ok ()) :
    ∃ d blocks, Dialect.ofFormat f = .ok d ∧ p.modules.mapM (p.linesOf d) = .ok blocks ∧
      ((Request.package p).reply f options sink).text
        = sink.content ++ (p.blocksText d options blocks).toUTF8 ∧
      (∀ (q : Package) (m : Module),
        (∀ i ∈ m.instances, q.face i.reference = p.face i.reference) →
          q.linesOf d m = p.linesOf d m) ∧
      (∀ (k : Nat) (m m' : Module), p.modules[k]? = some m → m'.interface = m.interface →
        let q : Package := { p with modules := p.modules.set k m' }
        ((Request.package q).reply f options sink).result = .ok () →
          ∃ block, q.linesOf d m' = .ok block ∧
            ((Request.package q).reply f options sink).text
              = sink.content ++ (p.blocksText d options (blocks.set k block)).toUTF8) ∧
      ∀ more : List Module,
        let q : Package := { p with modules := p.modules ++ more }
        ∃ rest, ((Request.package q).reply f options sink).text
          = ((Request.package p).reply f options sink).text ++ rest := by
  obtain ⟨d, dialect, run⟩ := Request.run_of_reply written
  obtain ⟨blocks, all, text⟩ := Package.text_of_reply dialect written
  refine ⟨d, blocks, dialect, all, text, ?_, ?_, ?_⟩
  · intro q m same
    exact Package.linesOf_congr same d
  · intro k m m' place same q written'
    obtain ⟨blocks', all', text'⟩ := Package.text_of_reply dialect written'
    rw [Package.linesOf_set place same] at all' ⊢
    obtain ⟨hk, -⟩ := List.getElem?_eq_some_iff.mp place
    obtain ⟨block, here, rfl⟩ := mapM_set_eq_ok hk all all'
    exact ⟨block, here, text'⟩
  · intro more q
    obtain ⟨accepted, forgotten⟩ := Session.accepted_of_run run
    obtain ⟨after, ends⟩ := result_of_forget forgotten
    have own : ((Request.package p).reply f options sink).text = sink.content
        ++ (Session.shown 0 options (p.frontScript d options .empty).lines).toUTF8 := by
      rw [Request.reply_of_dialect dialect, Package.lines_frontScript ends]
      exact Session.content_of_run run
    obtain ⟨tail, mine⟩ := events_bind (p.frontScript d options .empty) (p.endScript d)
    obtain ⟨rest, theirs⟩ : ∃ rest, (q.script d options .empty).events
        = (p.frontScript d options .empty).events ++ rest := by
      rw [q.script_eq, Package.frontScript_append, bind_assoc]
      exact events_bind _ _
    rw [← Package.script_eq] at mine
    change (Session.play _ _ (p.script d options .empty).events).2 = none at accepted
    rw [mine] at accepted
    obtain ⟨behind, continued⟩ := Session.content_of_continued accepted rest
    refine ⟨behind, ?_⟩
    rw [own, Request.reply_of_dialect dialect, Session.replied, Session.run_eq_ending,
      Session.sink_ending]
    change (Session.play _ _ (q.script d options .empty).events).1.sink.content = _
    rw [theirs]
    exact continued

end Replies

/-- A module with the one port `p`, and the given lines in it. -/
def pad (literals : List String) : Module :=
  { name := "pad", ports := [{ signal := "p" }], signals := [.scalar "p"], literals }

def padInstance : Instance :=
  { name := "u", reference := .internal "pad", connections := [⟨"p", .signal "a"⟩] }

/-- A package with the module and a second one that has an instance of it. -/
def padded (literals : List String) : Package :=
  { modules := [pad literals,
      { name := "top", signals := [.scalar "a"], instances := [padInstance] }] }

/-- A comment in the first module is in its block, and the block of the second one is the same. -/
theorem module_blocks_independent_comment :
    ∃ plain commented top,
      ((Request.package (padded [])).reply .spice {} {}).text
        = .empty ++ ((padded []).blocksText .spice {} [plain, top]).toUTF8 ∧
      ((Request.package (padded ["* tbd"])).reply .spice {} {}).text
        = .empty ++ ((padded []).blocksText .spice {} [commented, top]).toUTF8 ∧
      Line.text 0 "* tbd" ∉ plain ∧ Line.text 0 "* tbd" ∈ commented := by
  have dialect : Dialect.ofFormat .spice = .ok .spice := rfl
  have plain : ((Request.package (padded [])).reply .spice {} {}).result = .ok () :=
    Request.result_of_unlimited dialect _
  have commented : ((Request.package (padded ["* tbd"])).reply .spice {} {}).result = .ok () :=
    Request.result_of_unlimited dialect _
  obtain ⟨d, blocks, dialect', all, text, -, other, -⟩ := module_blocks_independent plain
  obtain rfl := Except.ok.inj (dialect.symm.trans dialect')
  obtain ⟨block, here, text'⟩ := other 0 _ (pad ["* tbd"]) rfl rfl commented
  have known : (padded []).modules.mapM ((padded []).linesOf .spice) = .ok [_, _] := rfl
  have known' : (padded ["* tbd"]).linesOf .spice (pad ["* tbd"]) = .ok _ := rfl
  obtain rfl := Except.ok.inj (known.symm.trans all)
  obtain rfl := Except.ok.inj (known'.symm.trans here)
  exact ⟨_, _, _, text, text', by decide, by decide⟩

end CircuitNetlist
