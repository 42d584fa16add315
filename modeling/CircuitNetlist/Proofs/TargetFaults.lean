import Mathlib.Algebra.GroupWithZero.Nat
import Mathlib.Logic.Relation
import CircuitNetlist.Proofs.ConnectionText

/-!
# Which targets have a text

The nodes of a target are looked at one after the other, a concatenation before its parts and these
from left to right, and the first one that is at fault decides on the whole. Dialects have no say in
it. Where buses are written bit by bit, a text says nothing about how its target was nested: a
concatenation within another one may as well be replaced by its parts.
-/
namespace CircuitNetlist

namespace Target

/-! ### Faults of single nodes -/

mutual

/-- The nodes of a target, a concatenation in front of its parts and these from left to right. -/
def preorder : Target → List Target
  | .signal name => [.signal name]
  | .slice r => [.slice r]
  | .concat parts => .concat parts :: preorderOfAll parts

def preorderOfAll : List Target → List Target
  | [] => []
  | part :: parts => preorder part ++ preorderOfAll parts

end

/-- What is wrong with a node, its parts apart. -/
inductive Offends (signals : List Signal) : Target → Cause → Prop
  | unknown {name : String} :
      name ∉ signals.map (·.name) → Offends signals (.signal name) (.unknownSignal name)
  | unknownBus {r : Slice} :
      r.signal ∉ signals.map (·.name) → Offends signals (.slice r) (.unknownSignal r.signal)
  | empty {r : Slice} {s : Signal} :
      s ∈ signals → s.name = r.signal → r.top < r.bottom →
        Offends signals (.slice r) (.emptySlice r)
  | outside {r : Slice} {s : Signal} :
      s ∈ signals → s.name = r.signal → r.bottom ≤ r.top → s.width ≤ r.top →
        Offends signals (.slice r) (.sliceOutOfRange r s.width)
  | noParts : Offends signals (.concat []) .emptyConcat

/-- Nothing is wrong with any of the nodes. -/
def Sound (signals : List Signal) (nodes : List Target) : Prop :=
  ∀ node ∈ nodes, ∀ cause, ¬ node.Offends signals cause

/-- The first node that something is wrong with has this fault. -/
def FirstOffends (signals : List Signal) (nodes : List Target) (cause : Cause) : Prop :=
  ∃ front node back, nodes = front ++ node :: back ∧ Sound signals front ∧
    node.Offends signals cause

section Nodes
variable {signals : List Signal} {nodes more : List Target} {node : Target} {cause cause' : Cause}

theorem sound_append :
    Sound signals (nodes ++ more) ↔ Sound signals nodes ∧ Sound signals more :=
  List.forall_mem_append

theorem sound_cons :
    Sound signals (node :: more) ↔
      (∀ cause, ¬ node.Offends signals cause) ∧ Sound signals more :=
  List.forall_mem_cons

/-- Two signals of one name are the same, so a node has one fault at most. -/
theorem Offends.unique (distinct : (signals.map (·.name)).Nodup)
    (h : node.Offends signals cause) (h' : node.Offends signals cause') : cause = cause' := by
  cases h with
  | unknown absent => cases h' with | unknown _ => rfl
  | unknownBus absent =>
      cases h' with
      | unknownBus _ => rfl
      | empty mem named _ => exact absurd (named ▸ List.mem_map_of_mem mem) absent
      | outside mem named _ _ => exact absurd (named ▸ List.mem_map_of_mem mem) absent
  | empty mem named empty =>
      cases h' with
      | unknownBus absent => exact absurd (named ▸ List.mem_map_of_mem mem) absent
      | empty _ _ _ => rfl
      | outside _ _ order _ => exact absurd empty (UInt64.not_lt.mpr order)
  | outside mem named order outside =>
      cases h' with
      | unknownBus absent => exact absurd (named ▸ List.mem_map_of_mem mem) absent
      | empty _ _ empty => exact absurd empty (UInt64.not_lt.mpr order)
      | outside mem' named' _ _ =>
          rw [List.inj_on_of_nodup_map distinct mem mem' (named.trans named'.symm)]
  | noParts => cases h' with | noParts => rfl

theorem firstOffends_cons :
    FirstOffends signals (node :: more) cause ↔
      node.Offends signals cause ∨
        (∀ cause, ¬ node.Offends signals cause) ∧ FirstOffends signals more cause := by
  constructor
  · intro h
    obtain ⟨front, found, back, split, sound, offends⟩ := h
    rcases List.cons_eq_append_iff.mp split with ⟨rfl, here⟩ | ⟨front', rfl, rest⟩
    · obtain ⟨rfl, rfl⟩ := List.cons.inj here
      exact .inl offends
    · obtain ⟨first, others⟩ := sound_cons.mp sound
      exact .inr ⟨first, front', found, back, rest, others, offends⟩
  · intro h
    rcases h with offends | ⟨first, front, found, back, rfl, sound, offends⟩
    · exact ⟨[], node, more, rfl, by simp [Sound], offends⟩
    · exact ⟨node :: front, found, back, rfl, sound_cons.mpr ⟨first, sound⟩, offends⟩

theorem FirstOffends.not_sound (h : FirstOffends signals nodes cause) : ¬ Sound signals nodes := by
  obtain ⟨front, node, back, rfl, -, offends⟩ := h
  intro sound
  exact sound node (by simp) cause offends

theorem FirstOffends.unique (distinct : (signals.map (·.name)).Nodup)
    (h : FirstOffends signals nodes cause) (h' : FirstOffends signals nodes cause') :
    cause = cause' := by
  induction nodes with
  | nil =>
      obtain ⟨front, node, back, split, -, -⟩ := h
      simp at split
  | cons node nodes ih =>
      rw [firstOffends_cons] at h h'
      rcases h with offends | ⟨none, later⟩
      · rcases h' with offends' | ⟨none', -⟩
        · exact offends.unique distinct offends'
        · exact absurd offends (none' cause)
      · rcases h' with offends' | ⟨-, later'⟩
        · exact absurd offends' (none cause')
        · exact ih later later'

theorem FirstOffends.append (h : FirstOffends signals nodes cause) (more : List Target) :
    FirstOffends signals (nodes ++ more) cause := by
  obtain ⟨front, node, back, rfl, sound, offends⟩ := h
  exact ⟨front, node, back ++ more, by simp, sound, offends⟩

theorem FirstOffends.behind (sound : Sound signals nodes) (h : FirstOffends signals more cause) :
    FirstOffends signals (nodes ++ more) cause := by
  obtain ⟨front, node, back, rfl, sound', offends⟩ := h
  exact ⟨nodes ++ front, node, back, by simp, sound_append.mpr ⟨sound, sound'⟩, offends⟩

end Nodes

/-! ### Steps that look at nodes -/

/-- A step ends well only where nothing is wrong with the nodes, and otherwise as the first of them
says. -/
structure Settles {α : Type} (signals : List Signal) (nodes : List Target)
    (step : Except Cause α) : Prop where
  sound : ∀ a, step = .ok a → Sound signals nodes
  first : ∀ cause, step = .error cause → FirstOffends signals nodes cause

namespace Settles
variable {α β : Type} {signals : List Signal} {nodes more : List Target} {step : Except Cause α}

theorem pure (a : α) : Settles signals [] (pure a : Except Cause α) := by
  refine ⟨fun _ _ => by simp [Sound], ?_⟩
  intro cause failed
  cases failed

theorem bind {next : α → Except Cause β} (h : Settles signals nodes step)
    (rest : ∀ a, Settles signals more (next a)) :
    Settles signals (nodes ++ more) (step >>= next) := by
  constructor
  · intro b ended
    obtain ⟨a, first, later⟩ := bind_eq_ok.mp ended
    exact sound_append.mpr ⟨h.sound a first, (rest a).sound b later⟩
  · intro cause failed
    rcases bind_eq_error.mp failed with first | ⟨a, first, later⟩
    · exact (h.first cause first).append more
    · exact ((rest a).first cause later).behind (h.sound a first)

/-- What is done with a result makes no difference. -/
theorem map (h : Settles signals nodes step) (f : α → β) :
    Settles signals nodes (step >>= fun a => Pure.pure (f a)) := by
  have both := h.bind fun a => Settles.pure (f a)
  rw [List.append_nil] at both
  exact both

theorem cons {node : Target} (none : ∀ cause, ¬ node.Offends signals cause)
    (h : Settles signals nodes step) : Settles signals (node :: nodes) step := by
  refine ⟨fun a ended => sound_cons.mpr ⟨none, h.sound a ended⟩, ?_⟩
  intro cause failed
  exact firstOffends_cons.mpr (.inr ⟨none, h.first cause failed⟩)

theorem of_node {node : Target}
    (sound : ∀ a, step = .ok a → ∀ cause, ¬ node.Offends signals cause)
    (first : ∀ cause, step = .error cause → node.Offends signals cause) :
    Settles signals [node] step := by
  refine ⟨fun a ended => List.forall_mem_singleton.mpr (sound a ended), ?_⟩
  intro cause failed
  exact firstOffends_cons.mpr (.inl (first cause failed))

theorem eq_error_iff (distinct : (signals.map (·.name)).Nodup) (h : Settles signals nodes step)
    {cause : Cause} : step = .error cause ↔ FirstOffends signals nodes cause := by
  refine ⟨h.first cause, ?_⟩
  intro offends
  cases ended : step with
  | ok a => exact absurd (h.sound a ended) offends.not_sound
  | error other => rw [(h.first other ended).unique distinct offends]

theorem isOk_iff (h : Settles signals nodes step) :
    (∃ a, step = .ok a) ↔ Sound signals nodes := by
  constructor
  · intro ended
    obtain ⟨a, ended⟩ := ended
    exact h.sound a ended
  · intro sound
    cases ended : step with
    | ok a => exact ⟨a, rfl⟩
    | error cause => exact absurd sound (h.first cause ended).not_sound

end Settles

section Texts
variable {d : Dialect} {t : SignalTable}

theorem settles_get (t : SignalTable) (name : String) :
    Settles t.signals [.signal name] (t.get name) := by
  apply Settles.of_node
  · intro s found cause offends
    cases offends with
    | unknown absent =>
        rw [SignalTable.get_eq_ok, SignalTable.find?_eq_none_iff.mpr absent] at found
        cases found
  · intro cause failed
    unfold SignalTable.get at failed
    cases found : SignalTable.find? t.signals name with
    | some s =>
        rw [found] at failed
        cases failed
    | none =>
        rw [found] at failed
        obtain rfl := Except.error.inj failed
        exact .unknown (SignalTable.find?_eq_none_iff.mp found)

theorem settles_checkSlice (distinct : (t.signals.map (·.name)).Nodup) (r : Slice) :
    Settles t.signals [.slice r] (t.checkSlice r) := by
  apply Settles.of_node
  · intro _ checked cause offends
    obtain ⟨s, found, order, inside⟩ := checkSlice_eq_ok.mp checked
    have same : ∀ s' ∈ t.signals, s'.name = r.signal → s' = s := by
      intro s' mem named
      exact List.inj_on_of_nodup_map distinct mem (SignalTable.mem_of_find? found)
        (named.trans (SignalTable.name_of_find? found).symm)
    cases offends with
    | unknownBus absent =>
        rw [SignalTable.find?_eq_none_iff.mpr absent] at found
        cases found
    | empty mem named empty => exact absurd empty (UInt64.not_lt.mpr order)
    | outside mem named _ outside =>
        rw [same _ mem named] at outside
        exact absurd inside (UInt64.not_lt.mpr outside)
  · intro cause failed
    rw [SignalTable.checkSlice, bind_eq_error] at failed
    rcases failed with unknown | ⟨s, known, failed⟩
    · obtain ⟨front, node, back, split, -, offends⟩ := (settles_get t r.signal).first cause unknown
      have single : node = .signal r.signal := by
        have mem : node ∈ [Target.signal r.signal] := by simp [split]
        exact List.mem_singleton.mp mem
      rw [single] at offends
      cases offends with
      | unknown absent => exact .unknownBus absent
    · have found := SignalTable.get_eq_ok.mp known
      have mem := SignalTable.mem_of_find? found
      have named := SignalTable.name_of_find? found
      by_cases empty : r.top < r.bottom
      · rw [if_pos empty] at failed
        obtain rfl := Except.error.inj failed
        exact .empty mem named empty
      · by_cases outside : s.width ≤ r.top
        · rw [if_neg empty, if_pos outside] at failed
          obtain rfl := Except.error.inj failed
          exact .outside mem named (UInt64.not_lt.mp empty) outside
        · rw [if_neg empty, if_neg outside] at failed
          cases failed

mutual

/-- The text of a target depends on all of its nodes, in order. -/
theorem settles_textIn (d : Dialect) (distinct : (t.signals.map (·.name)).Nodup) :
    ∀ target : Target, Settles t.signals target.preorder (target.textIn d t)
  | .signal name => by
      rw [preorder, textIn]
      exact (settles_get t name).map _
  | .slice r => by
      rw [preorder, textIn]
      exact (settles_checkSlice distinct r).map _
  | .concat [] => by
      rw [preorder, preorderOfAll, textIn]
      apply Settles.of_node
      · intro text ended
        exact absurd ended throw_ne_ok
      · intro cause failed
        obtain rfl := Except.error.inj failed
        exact .noParts
  | .concat (part :: parts) => by
      rw [preorder, preorderOfAll, textIn]
      apply Settles.cons
      · intro cause offends
        cases offends
      · apply (settles_textIn d distinct part).bind
        intro first
        exact (settles_textsIn d distinct parts).map _

theorem settles_textsIn (d : Dialect) (distinct : (t.signals.map (·.name)).Nodup) :
    ∀ parts : List Target, Settles t.signals (preorderOfAll parts) (textsIn d t parts)
  | [] => by
      rw [preorderOfAll, textsIn]
      exact .pure _
  | part :: parts => by
      rw [preorderOfAll, textsIn]
      apply (settles_textIn d distinct part).bind
      intro text
      exact (settles_textsIn d distinct parts).map _

end

end Texts

/-! ### Splicing -/

/-- A concatenation somewhere within another one is replaced by its parts. -/
inductive Splices : Target → Target → Prop
  | here (front parts back : List Target) :
      Splices (.concat (front ++ .concat parts :: back)) (.concat (front ++ parts ++ back))
  | within {part spliced : Target} (front back : List Target) : Splices part spliced →
      Splices (.concat (front ++ part :: back)) (.concat (front ++ spliced :: back))

theorem leavesOfAll_append (parts more : List Target) :
    leavesOfAll (parts ++ more) = leavesOfAll parts ++ leavesOfAll more := by
  induction parts with
  | nil => rfl
  | cons part parts ih => rw [List.cons_append, leavesOfAll, leavesOfAll, ih, List.append_assoc]

theorem preorderOfAll_append (parts more : List Target) :
    preorderOfAll (parts ++ more) = preorderOfAll parts ++ preorderOfAll more := by
  induction parts with
  | nil => rfl
  | cons part parts ih =>
      rw [List.cons_append, preorderOfAll, preorderOfAll, ih, List.append_assoc]

theorem Splices.leaves_eq {target spliced : Target} (h : Splices target spliced) :
    spliced.leaves = target.leaves := by
  induction h with
  | here front parts back =>
      simp only [leaves, leavesOfAll, leavesOfAll_append, List.append_assoc]
  | within front back h ih => simp only [leaves, leavesOfAll, leavesOfAll_append, ih]

/-- Nothing is wrong with a concatenation that has parts. -/
theorem not_offends_concat {signals : List Signal} {parts : List Target} (some : parts ≠ [])
    (cause : Cause) : ¬ (Target.concat parts).Offends signals cause := by
  intro offends
  cases offends
  exact some rfl

theorem Splices.sound {signals : List Signal} {target spliced : Target}
    (h : Splices target spliced) (sound : Sound signals target.preorder) :
    Sound signals spliced.preorder := by
  induction h with
  | here front parts back =>
      simp only [preorder, preorderOfAll, preorderOfAll_append, sound_cons, sound_append]
        at sound ⊢
      obtain ⟨-, first, ⟨inner, within⟩, last⟩ := sound
      refine ⟨not_offends_concat ?_, ⟨first, within⟩, last⟩
      -- the spliced concatenation has parts, or it would be at fault itself
      intro none
      simp only [List.append_eq_nil_iff] at none
      exact inner .emptyConcat (none.1.2 ▸ .noParts)
  | within front back h ih =>
      simp only [preorder, preorderOfAll, preorderOfAll_append, sound_cons, sound_append]
        at sound ⊢
      obtain ⟨-, first, part, last⟩ := sound
      exact ⟨not_offends_concat (by simp), first, ih part, last⟩

end Target

/-! ### What a text consists of -/

/-- As how many nodes a leaf is written. -/
def Leaf.size (signals : List Signal) : Leaf → Nat
  | whole name => ((SignalTable.find? signals name).map (·.width.toNat)).getD 0
  | range r => r.top.toNat - r.bottom.toNat + 1

theorem Leaf.Fits.length_nodes_eq {d : Dialect} {signals : List Signal} {leaf : Leaf}
    (fits : leaf.Fits signals) : (leaf.nodes d signals).length = leaf.size signals := by
  cases leaf with
  | whole name =>
      obtain ⟨s, found⟩ := fits
      simp [nodes, size, found]
  | range r =>
      obtain ⟨s, -, order, -⟩ := fits
      rw [UInt64.le_iff_toNat_le] at order
      simp only [nodes, size, Slice.bits, List.length_map, length_downTo]
      omega

namespace Target
variable {d : Dialect} {t : SignalTable}

theorem length_nodes_eq {signals : List Signal} {target : Target}
    (fits : ∀ leaf ∈ target.leaves, leaf.Fits signals) :
    (target.nodes d signals).length = (target.leaves.map (Leaf.size signals)).sum := by
  rw [nodes, List.length_flatMap]
  congr 1
  exact List.map_congr_left fun leaf mem => (fits leaf mem).length_nodes_eq

/-- Where buses are written bit by bit, an accepted text is the nodes of the leaves. -/
theorem text_eq_nodes (expands : d.family ≠ .verilog) (widths : ∀ s ∈ t.signals, s.width ≠ 0)
    {target : Target} {text : String} (written : target.textIn d t = .ok text) :
    text = joinWords (target.nodes d t.signals) := by
  have joined := (reads_of_textIn expands widths written).joined
  rw [show joinWords [text] = text by simp [joinWords]] at joined
  exact joined

/-- In every dialect the leaves of an accepted target refer to signals and stay within them. -/
theorem fits_of_textIn (distinct : (t.signals.map (·.name)).Nodup)
    (widths : ∀ s ∈ t.signals, s.width ≠ 0) {target : Target} {text : String}
    (written : target.textIn d t = .ok text) : ∀ leaf ∈ target.leaves, leaf.Fits t.signals := by
  -- what is accepted here is accepted where buses are written bit by bit
  have sound := (settles_textIn d distinct target).sound text written
  obtain ⟨text', expanded⟩ := (settles_textIn .spice distinct target).isOk_iff.mpr sound
  exact (reads_of_textIn (by decide) widths expanded).fits

/-- A target with spliced concatenations is accepted with the same text. -/
theorem textIn_of_splices (expands : d.family ≠ .verilog)
    (distinct : (t.signals.map (·.name)).Nodup) (widths : ∀ s ∈ t.signals, s.width ≠ 0)
    {target spliced : Target} {text : String} (written : target.textIn d t = .ok text)
    (splices : Relation.ReflTransGen Splices target spliced) :
    spliced.textIn d t = .ok text := by
  induction splices with
  | refl => exact written
  | @tail between spliced _ one ih =>
      have sound := one.sound ((settles_textIn d distinct between).sound text ih)
      obtain ⟨text', written'⟩ := (settles_textIn d distinct spliced).isOk_iff.mpr sound
      rw [written', text_eq_nodes expands widths written', text_eq_nodes expands widths ih, nodes,
        nodes, one.leaves_eq]

end Target

/-- In a module that has a table, a target has a text exactly if nothing is wrong with any of its
nodes, and otherwise fails as the first of them in preorder says, in all dialects alike. Where buses
are written bit by bit, the text is as many nodes as its leaves have bits, and stays the same if
concatenations within others are replaced by their parts. -/
theorem target_settled_by_first_fault {m : Module} {t : SignalTable}
    (accepted : SignalTable.ofModule m = .ok t) (target : Target) :
    (∀ d, (∃ text, target.textIn d t = .ok text) ↔ Target.Sound m.signals target.preorder) ∧
    (∀ d cause, target.textIn d t = .error cause ↔
      Target.FirstOffends m.signals target.preorder cause) ∧
    (∀ d d', (∃ text text', target.textIn d t = .ok text ∧ target.textIn d' t = .ok text') ∨
      ∃ cause, target.textIn d t = .error cause ∧ target.textIn d' t = .error cause) ∧
    ∀ d text, d.family ≠ .verilog → target.textIn d t = .ok text →
      text = joinWords (target.nodes d m.signals) ∧
      (target.nodes d m.signals).length = (target.leaves.map (Leaf.size m.signals)).sum ∧
      ∀ spliced, Relation.ReflTransGen Target.Splices target spliced →
        spliced.textIn d t = .ok text := by
  have h := SignalTable.ofModule_eq_ok.mp accepted
  have distinct : (t.signals.map (·.name)).Nodup := h.signals ▸ h.names
  have widths : ∀ s ∈ t.signals, s.width ≠ 0 := h.signals ▸ h.widths
  have settles := fun d => Target.settles_textIn d distinct target
  rw [← h.signals]
  refine ⟨fun d => (settles d).isOk_iff, fun d cause => (settles d).eq_error_iff distinct, ?_, ?_⟩
  · intro d d'
    cases ended : target.textIn d t with
    | ok text =>
        obtain ⟨text', ended'⟩ := (settles d').isOk_iff.mpr ((settles d).sound text ended)
        exact .inl ⟨text, text', rfl, ended'⟩
    | error cause =>
        exact .inr ⟨cause, rfl, ((settles d').eq_error_iff distinct).mpr
          ((settles d).first cause ended)⟩
  · intro d text expands written
    have reads := Target.reads_of_textIn expands widths written
    exact ⟨Target.text_eq_nodes expands widths written, Target.length_nodes_eq reads.fits,
      fun spliced splices => Target.textIn_of_splices expands distinct widths written splices⟩

/-- A bus of four bits beside a wire. -/
def fourBits : Module :=
  { name := "m", signals := [⟨"a", 4⟩, ⟨"b", 1⟩] }

/-- Two ranges of the bus in a concatenation of their own, between two wires. -/
def nestedRanges : Target :=
  .concat [.signal "b", .concat [.slice ⟨"a", 3, 3⟩, .slice ⟨"a", 1, 0⟩], .signal "b"]

/-- A wire, then a range beyond the bus, then an empty concatenation. -/
def twoFaults : Target :=
  .concat [.concat [.signal "b", .slice ⟨"a", 4, 0⟩], .concat []]

/-- The text is that of five wires in a row, and of two faults the first one counts everywhere. -/
theorem target_settled_by_first_fault_nested :
    ∃ t, SignalTable.ofModule fourBits = .ok t ∧
      nestedRanges.textIn .hspice t = .ok "b a_3 a_1 a_0 b" ∧
      (nestedRanges.nodes .hspice fourBits.signals).length = 1 + 1 + 2 + 1 ∧
      (Target.concat [.signal "b", .slice ⟨"a", 3, 3⟩, .slice ⟨"a", 1, 0⟩,
        .signal "b"]).textIn .hspice t = .ok "b a_3 a_1 a_0 b" ∧
      ∀ d, twoFaults.textIn d t = .error (.sliceOutOfRange ⟨"a", 4, 0⟩ 4) := by
  have accepted :
      SignalTable.ofModule fourBits = .ok ⟨fourBits.signals, [], fourBits.signals⟩ := rfl
  have written : nestedRanges.textIn .hspice ⟨fourBits.signals, [], fourBits.signals⟩
      = .ok "b a_3 a_1 a_0 b" := rfl
  obtain ⟨-, -, -, texts⟩ := target_settled_by_first_fault accepted nestedRanges
  obtain ⟨-, count, splices⟩ := texts .hspice _ (by decide) written
  have one : Target.Splices nestedRanges (.concat [.signal "b", .slice ⟨"a", 3, 3⟩,
      .slice ⟨"a", 1, 0⟩, .signal "b"]) :=
    .here [.signal "b"] [.slice ⟨"a", 3, 3⟩, .slice ⟨"a", 1, 0⟩] [.signal "b"]
  refine ⟨_, accepted, written, count, splices _ (.single one), ?_⟩
  intro d
  refine ((target_settled_by_first_fault accepted twoFaults).2.1 d _).mpr ?_
  refine ⟨[twoFaults, .concat [.signal "b", .slice ⟨"a", 4, 0⟩], .signal "b"],
    .slice ⟨"a", 4, 0⟩, [.concat []], rfl, ?_, ?_⟩
  · have wire : ∀ cause, ¬ (Target.signal "b").Offends fourBits.signals cause := by
      intro cause offends
      cases offends with
      | unknown absent => exact absent (by decide)
    exact List.forall_mem_cons.mpr ⟨Target.not_offends_concat (by simp),
      List.forall_mem_cons.mpr ⟨Target.not_offends_concat (by simp),
        List.forall_mem_singleton.mpr wire⟩⟩
  · exact .outside (s := ⟨"a", 4⟩) (by decide) rfl (by decide) (by decide)

end CircuitNetlist
