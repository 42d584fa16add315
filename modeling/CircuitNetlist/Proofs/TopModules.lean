import CircuitNetlist.Proofs.DeckParts
import CircuitNetlist.Proofs.ModuleBlocks
import CircuitNetlist.Proofs.ModuleOrder
import CircuitNetlist.Proofs.PositionalNodes

/-!
# The top module of a deck

The top module is found by its own name before anything is written, and its instance refers to it by
its netlist name. Of the subcircuits in the deck only its own has that name. The instance has one
node for the one port; the subcircuit has as many as the port's signal is wide.
-/
namespace CircuitNetlist

open Script

/-- Of some entries with distinct keys only the entry itself has its key. -/
theorem filter_key_of_nodup {α κ : Type} [DecidableEq κ] {key : α → κ} {xs : List α} {x : α}
    (distinct : (xs.map key).Nodup) (mem : x ∈ xs) : xs.filter (key · = key x) = [x] := by
  induction xs with
  | nil => simp at mem
  | cons first rest ih =>
      rw [List.map_cons, List.nodup_cons] at distinct
      rcases List.mem_cons.mp mem with rfl | later
      · have none : rest.filter (key · = key x) = [] := by
          rw [List.filter_eq_nil_iff]
          intro y behind same
          exact distinct.1 (of_decide_eq_true same ▸ List.mem_map_of_mem behind)
        rw [List.filter_cons_of_pos (by simp), none]
      · have other : key first ≠ key x := by
          intro same
          exact distinct.1 (same ▸ List.mem_map_of_mem later)
        rw [List.filter_cons_of_neg (by simpa using other)]
        exact ih distinct.2 later

namespace Package
variable {d : Dialect} {options : Options} {p : Package} {blocks : List (List Line)}

/-- The block of a module is headed by its netlist name and the nodes of its ports. -/
def Headed (d : Dialect) (m : Module) (block : List Line) : Prop :=
  ∃ t, SignalTable.ofModule m = .ok t ∧
    definitionHead d (sanitize m.name) (joinWords (t.portNodes d).flatten) <+: block

theorem headed_of_linesOf {m : Module} {block : List Line} (lines : p.linesOf d m = .ok block) :
    Headed d m block := by
  simp only [linesOf, Module.linesFrom, bind_eq_ok, pure_eq_ok] at lines
  obtain ⟨faces, -, t, table, opening, opened, inside, -, rfl⟩ := lines
  refine ⟨t, table, ?_⟩
  rw [List.append_assoc]
  exact (definitionHead_opens opened).trans (List.prefix_append _ _)

end Package

namespace SimulationInput
/-- What the one port of the top module is connected to: ground. -/
def topNodes : List String :=
  ["0"]

theorem topLine_eq_words (d : Dialect) (name : String) :
    topLine d name
      = .text 0 (joinWords ("xtop" :: topNodes ++ sanitize name :: d.topComment.toList)) := by
  have front : ∀ text : String, "xtop 0 " ++ text = "xtop" ++ " " ++ ("0" ++ " " ++ text) := by
    intro text
    rw [← String.append_assoc]
    rfl
  unfold topLine joinWords topNodes
  cases d.topComment with
  | none =>
      simp only [front, Option.toList_none, List.cons_append, List.nil_append,
        String.intercalate_cons_cons, String.intercalate_singleton]
  | some comment =>
      simp only [front, Option.toList_some, List.cons_append, List.nil_append,
        String.intercalate_cons_cons, String.intercalate_singleton, String.append_assoc]

end SimulationInput

/-- A module with one port has one signal on the line of its ports. -/
theorem SignalTable.Describes.ports_eq_singleton {t : SignalTable} {m : Module} (h : t.Describes m)
    (one : m.ports.length = 1) : ∃ port, t.ports = [port] := by
  rw [← h.ports, List.length_map] at one
  exact List.length_eq_one_iff.mp one

section Replies
variable {f : Format} {d : Dialect} {options : Options} {flushFails : Bool}

theorem Package.distinct_of_reply {p : Package} {sink : Sink}
    (written : ((Request.package p).reply f options sink).result = .ok ()) :
    (p.modules.map fun m => sanitize m.name).Nodup := by
  obtain ⟨d, -, run⟩ := Request.run_of_reply written
  obtain ⟨after, ends⟩ := result_of_forget (Session.accepted_of_run run).2
  exact (distinct_of_writes (writes_of_result ends)).2

theorem SimulationInput.usableTop_of_reply {s : SimulationInput}
    (dialect : Dialect.ofFormat f = .ok d)
    (written : ((Request.deck s).reply f options { flushFails }).result = .ok ()) :
    ∃ top, s.usableTop d = .ok top := by
  cases usable : s.usableTop d with
  | ok top => exact ⟨top, rfl⟩
  | error cause =>
      rw [reply_of_unusable dialect usable] at written
      cases written

/-- The lines of a deck up to the instance of its top module. -/
def SimulationInput.linesToTop (s : SimulationInput) (d : Dialect) (options : Options)
    (blocks : List (List Line)) (top : Module) : List Line :=
  s.headerLines d ++ (s.package.headerLines d options ++ blocks.flatten)
    ++ [.text 0 (joinWords ("xtop" :: topNodes ++ sanitize top.name :: d.topComment.toList)),
      .blank 0]

theorem SimulationInput.text_to_top {s : SimulationInput} {top : Module}
    (dialect : Dialect.ofFormat f = .ok d) (usable : s.usableTop d = .ok top)
    (written : ((Request.deck s).reply f options { flushFails }).result = .ok ()) :
    ∃ blocks rest, s.package.modules.mapM (s.package.linesOf d) = .ok blocks ∧
      ((Request.deck s).reply f options { flushFails }).text
        = (Session.shown 0 options (s.linesToTop d options blocks top)).toUTF8 ++ rest := by
  obtain ⟨package, -, -, values, -, text⟩ := text_of_deck dialect written
  obtain ⟨blocks, all, inside⟩ := Package.text_of_reply dialect package
  have own : ((Request.package s.package).reply f options { flushFails }).text
      = (Session.shown 0 options (s.package.headerLines d options ++ blocks.flatten)).toUTF8 := by
    rw [inside, shown_blocks]
    exact ByteArray.empty_append
  have front : (Session.shown 0 options (s.headerLines d)).toUTF8
      ++ ((Request.package s.package).reply f options { flushFails }).text
      ++ (Session.shown 0 options [topLine d s.top, .blank 0]).toUTF8
        = (Session.shown 0 options (s.linesToTop d options blocks top)).toUTF8 := by
    have joined : ∀ first rest : String, first.toUTF8 ++ rest.toUTF8 = (first ++ rest).toUTF8 := by
      intro first rest
      exact String.toByteArray_append.symm
    rw [own, ← name_of_usable usable, topLine_eq_words, linesToTop]
    simp only [Session.shown_append, joined]
  simp only [front] at text
  simp only [ByteArray.append_assoc] at text
  exact ⟨blocks, _, all, text⟩

/-- In a deck that is written well, the instance of the top module names a module that is there, and
of all the subcircuits in front of it only this module's has that name. It has one port, for which
the instance has one node and the subcircuit as many as the port's signal is wide; so the two have
equally many exactly if that signal is a wire of one bit. -/
theorem top_line_definition {s : SimulationInput} {capacity : Option Nat}
    (accepted : ((Request.deck s).reply f options { capacity, flushFails }).result = .ok ()) :
    ∃ d top t port blocks rest,
      Dialect.ofFormat f = .ok d ∧ d.family ≠ .verilog ∧
      s.package.module? s.top = some top ∧ SignalTable.ofModule top = .ok t ∧ t.ports = [port] ∧
      List.Forall₂ (Package.Headed d) s.package.modules blocks ∧
      ((Request.deck s).reply f options { capacity, flushFails }).text
        = (Session.shown 0 options (s.linesToTop d options blocks top)).toUTF8 ++ rest ∧
      s.package.modules.filter (fun m => sanitize m.name = sanitize top.name) = [top] ∧
      (t.portNodes d).flatten.length = port.2.width.toNat ∧
      (SimulationInput.topNodes.length = (t.portNodes d).flatten.length ↔ port.2.width = 1) := by
  obtain ⟨d, dialect, -⟩ := Request.run_of_reply accepted
  have whole :=
    (Request.reply_fitting dialect options capacity flushFails (.deck s)).2 (.inr accepted)
  rw [whole] at accepted ⊢
  obtain ⟨top, usable⟩ := SimulationInput.usableTop_of_reply dialect accepted
  obtain ⟨blocks, rest, all, text⟩ := SimulationInput.text_to_top dialect usable accepted
  obtain ⟨other, chosen⟩ := SimulationInput.usableTop_eq_ok.mp usable
  obtain ⟨found, one⟩ := SimulationInput.topModule_eq_ok.mp chosen
  have mem : top ∈ s.package.modules := List.mem_of_find?_eq_some found
  have heads : List.Forall₂ (Package.Headed d) s.package.modules blocks :=
    (mapM_eq_ok.mp all).imp fun m block => Package.headed_of_linesOf
  obtain ⟨k, hk, place⟩ := List.getElem_of_mem mem
  obtain ⟨t, table, -⟩ := heads.get hk (heads.length_eq ▸ hk)
  rw [List.get_eq_getElem, place] at table
  obtain ⟨port, ports⟩ := (SignalTable.ofModule_eq_ok.mp table).ports_eq_singleton one
  have distinct := Package.distinct_of_reply (SimulationInput.text_of_deck dialect accepted).1
  have width : (t.portNodes d).flatten.length = port.2.width.toNat := by
    simp [SignalTable.portNodes, ports]
  refine ⟨d, top, t, port, blocks, rest, dialect, other, found, table, ports, heads, text,
    filter_key_of_nodup distinct mem, width, ?_⟩
  rw [width, ← UInt64.toNat_inj]
  exact eq_comm

end Replies

/-- The one port of the bench is a wire, so both have one node. -/
theorem top_line_definition_wire :
    ((Request.deck (bench [])).reply .ngspice {} {}).result = .ok () ∧
      (bench []).package.modules.filter (fun m => sanitize m.name = "top") = [grounded []] ∧
      ∃ t, SignalTable.ofModule (grounded []) = .ok t ∧
        SimulationInput.topNodes.length = (t.portNodes .ngspice).flatten.length := by
  have dialect : Dialect.ofFormat .ngspice = .ok .ngspice := rfl
  have accepted : ((Request.deck (bench [])).reply .ngspice {} {}).result = .ok () :=
    Request.result_of_unlimited dialect _
  obtain ⟨d, top, t, port, blocks, rest, dialect', -, found, table, ports, -, -, only, -, same⟩ :=
    @top_line_definition .ngspice {} false (bench []) none accepted
  obtain rfl := Except.ok.inj (dialect.symm.trans dialect')
  have this : (bench []).package.module? (bench []).top = some (grounded []) := rfl
  obtain rfl := Option.some.inj (this.symm.trans found)
  refine ⟨accepted, only, t, table, same.mpr ?_⟩
  have known : SignalTable.ofModule (grounded []) = .ok _ := rfl
  obtain rfl := Except.ok.inj (known.symm.trans table)
  obtain ⟨rfl, -⟩ := List.cons.inj ports
  rfl

/-- A module with one port, a bus. -/
def busTop : Module :=
  ({ name := "tb" } : Module).withBusPort "vss" 4 .inout

/-- With a bus as its one port, the top module has more nodes than its instance. -/
theorem top_line_definition_bus :
    ((Request.deck { package := { modules := [busTop] }, top := "tb" }).reply .spice {} {}).result
        = .ok () ∧
      SimulationInput.topLine .spice busTop.name = .text 0 "xtop 0 tb" ∧
      ∃ t, SignalTable.ofModule busTop = .ok t ∧
        definitionHead .spice (sanitize busTop.name) (joinWords (t.portNodes .spice).flatten)
          = [.text 0 ".SUBCKT tb", .text 0 "+ vss_3 vss_2 vss_1 vss_0"] ∧
        SimulationInput.topNodes.length ≠ (t.portNodes .spice).flatten.length := by
  have dialect : Dialect.ofFormat .spice = .ok .spice := rfl
  exact ⟨Request.result_of_unlimited dialect _, by decide, _, rfl, by decide, by decide⟩

end CircuitNetlist
