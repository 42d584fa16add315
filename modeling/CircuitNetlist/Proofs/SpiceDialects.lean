import CircuitNetlist.Proofs.ConnectionText
import CircuitNetlist.Proofs.Outcomes

/-!
# The dialects of the Spice family

The layouts are shared within a family; what a dialect adds to them is how it comments, how it
writes expressions and which keyword it puts in front of parameters. Three dialects of the Spice
family agree on all of that and so write the same, and the fourth differs in nothing that could
fail.
-/
namespace CircuitNetlist

open Script

/-! ### What a family decides -/

section Families
variable {d e : Dialect}

theorem paramText_congr (same : d.family = e.family) : paramText d = paramText e := by
  have letters : d.scaleLetters = e.scaleLetters := by
    funext scale
    simp only [Dialect.scaleLetters, same]
  have scale : d.scaleText = e.scaleText := by
    funext scale
    simp only [Dialect.scaleText, letters]
  funext name value
  cases value with
  | scaled s => simp only [paramText, Value.textOf, Scaled.textOf, scale]
  | int i => rfl
  | double x => rfl
  | text s => rfl
  | literal s => rfl

theorem resolveParams_congr (same : paramText d = paramText e) :
    resolveParams d = resolveParams e := by
  have one : resolveDeclared d = resolveDeclared e := by
    funext given p
    simp only [resolveDeclared, same]
  funext overrides declared
  simp only [resolveParams, overrideTable, same, one]

theorem declaredDefault_congr (same : paramText d = paramText e) :
    declaredDefault d = declaredDefault e := by
  funext p
  simp only [declaredDefault, same]

/-- Outside of Verilog the nodes of a signal are written alike. -/
theorem busBit_congr (expands : d.family ≠ .verilog) (expands' : e.family ≠ .verilog) :
    d.busBit = e.busBit := by
  funext name index
  rw [Dialect.busBit_eq expands, Dialect.busBit_eq expands']

theorem Signal.bits_congr (same : d.busBit = e.busBit) (s : Signal) : s.bits d = s.bits e := by
  simp only [Signal.bits, same]

/-- The two write connections alike. -/
structure Target.WrittenAlike (d e : Dialect) : Prop where
  signal : signalText d = signalText e
  slice : sliceText d = sliceText e
  concat : concatText d = concatText e

namespace Target

theorem writtenAlike (expands : d.family ≠ .verilog) (expands' : e.family ≠ .verilog) :
    WrittenAlike d e := by
  have same := busBit_congr expands expands'
  refine ⟨?_, ?_, ?_⟩
  · funext s
    rw [signalText_eq expands, signalText_eq expands', Signal.bits_congr same]
  · funext range
    rw [sliceText_eq expands, sliceText_eq expands', Slice.bits, Slice.bits, same]
  · funext parts
    rw [concatText_eq expands, concatText_eq expands']

mutual

theorem WrittenAlike.textIn (h : WrittenAlike d e) (t : SignalTable) :
    ∀ target : Target, target.textIn d t = target.textIn e t
  | .signal name => by
      simp only [Target.textIn, h.signal]
  | .slice range => by
      simp only [Target.textIn, h.slice]
  | .concat [] => by
      simp only [Target.textIn]
  | .concat (part :: parts) => by
      simp only [Target.textIn, h.textIn t part, h.textsIn t parts, h.concat]

theorem WrittenAlike.textsIn (h : WrittenAlike d e) (t : SignalTable) :
    ∀ parts : List Target, Target.textsIn d t parts = Target.textsIn e t parts
  | [] => by
      simp only [Target.textsIn]
  | part :: parts => by
      simp only [Target.textsIn, h.textIn t part, h.textsIn t parts]

end

end Target

theorem bindPorts_dialects (expands : d.family ≠ .verilog) (expands' : e.family ≠ .verilog) :
    bindPorts d = bindPorts e := by
  have text := (Target.writtenAlike expands expands').textIn
  have one : bindPort d = bindPort e := by
    funext t connections p
    simp only [bindPort, text]
  funext t target connections
  simp only [bindPorts, one]

/-- So the outcome depends on the values of parameters only. -/
theorem Package.accept_congr (same : paramText d = paramText e) (expands : d.family ≠ .verilog)
    (expands' : e.family ≠ .verilog) : Package.accept d = Package.accept e := by
  have instances : Instance.accept d = Instance.accept e := by
    funext t scope i
    simp only [Instance.accept, resolveParams_congr same, bindPorts_dialects expands expands']
  have modules : Module.accept d = Module.accept e := by
    funext scope m
    simp only [Module.accept, declaredDefault_congr same, instances]
  funext scope p
  simp only [Package.accept, modules]

end Families

/-! ### What is left to a dialect -/

/-- The two are dialects of the Spice family that write everything alike but their names. -/
structure Dialect.WritesAs (d e : Dialect) : Prop where
  family : d.family = .spice
  family' : e.family = .spice
  marker : d.commentMarker = e.commentMarker
  expression : d.expression = e.expression
  keyword : d.paramsKeyword = e.paramsKeyword

/-- The dialects of the family that comment with a star. -/
def Dialect.starred : List Dialect :=
  [.spice, .hspice, .ngspice]

theorem Dialect.writesAs_of_starred : ∀ d ∈ starred, WritesAs d .spice := by
  simp only [starred, List.forall_mem_cons]
  refine ⟨?_, ?_, ?_, ?_⟩
  · exact ⟨rfl, rfl, rfl, rfl, rfl⟩
  · exact ⟨rfl, rfl, rfl, rfl, rfl⟩
  · exact ⟨rfl, rfl, rfl, rfl, rfl⟩
  · simp

namespace Dialect.WritesAs
variable {d e : Dialect} (h : WritesAs d e)
include h

theorem paramText : paramText d = paramText e :=
  paramText_congr (h.family.trans h.family'.symm)

theorem expands : d.family ≠ .verilog ∧ e.family ≠ .verilog := by
  rw [h.family, h.family']
  decide

theorem comment : Line.comment d = Line.comment e := by
  funext depth content
  simp only [Line.comment, Dialect.comment, h.marker]

theorem render (v : ValueText) : v.render d = v.render e := by
  simp only [ValueText.render, h.expression]

theorem paramsLine : paramsLine d = paramsLine e := by
  funext depth keyword params
  simp only [CircuitNetlist.paramsLine, h.comment, ParamTable.assignments, h.render]

theorem sourceClauses : Spice.sourceClauses d = Spice.sourceClauses e := by
  funext source params
  simp only [Spice.sourceClauses, Spice.clause, h.render]

theorem elementClauses : Spice.elementClauses d = Spice.elementClauses e := by
  funext m params
  simp only [Spice.elementClauses, h.sourceClauses, h.render]

theorem instanceLines : instanceLines d = instanceLines e := by
  funext i target params bindings
  simp only [CircuitNetlist.instanceLines, h.family, h.family', Spice.instanceLines,
    Spice.nodesLine, h.comment, h.keyword, h.paramsLine, h.elementClauses]

theorem instanceScript : Instance.script d = Instance.script e := by
  funext t scope i
  simp only [Instance.script, resolveParams_congr h.paramText,
    bindPorts_dialects h.expands.1 h.expands.2, h.instanceLines]

theorem declarations : declarations d = declarations e := by
  funext declared
  simp only [CircuitNetlist.declarations, h.paramText, h.render]

theorem parametersLine : Spice.parametersLine d = Spice.parametersLine e := by
  funext declared
  simp only [Spice.parametersLine, h.comment, h.declarations, h.keyword]

theorem portList (t : SignalTable) : t.portList d = t.portList e := by
  simp only [SignalTable.portList, Signal.bits_congr (busBit_congr h.expands.1 h.expands.2)]

theorem moduleScript : Module.script d = Module.script e := by
  funext scope m
  simp only [Module.script, Module.layout, h.family, h.family', Spice.moduleScript,
    continuationOr, h.comment, h.portList, h.parametersLine, Instance.scriptAll, h.instanceScript]

end Dialect.WritesAs

/-! ### The lines of a package, also of one that is refused -/

namespace Package

variable {p : Package} {scope registered : Scope}

/-- Behind the registrations come the header and what there is of the modules. -/
theorem lines_of_registered (d : Dialect) (options : Options)
    (ok : (p.externals.foldlM ExternalModule.script scope).result = .ok registered) :
    (p.script d options scope).lines
      = p.headerLines d options ++ (p.modules.foldlM (Module.script d) registered).lines := by
  unfold script
  rw [lines_bind_of_ok ok, lines_registration, List.nil_append, lines_bind_of_ok rfl,
    lines_writeAll]
  apply congrArg (p.headerLines d options ++ ·)
  cases modules : (p.modules.foldlM (Module.script d) registered).result with
  | error fault => exact lines_bind_of_error modules _
  | ok after =>
      rw [lines_bind_of_ok modules]
      exact List.append_nil _

/-- A package that does not get as far leaves no line. -/
theorem lines_of_unregistered {fault : Fault} (d : Dialect) (options : Options)
    (failed : (p.externals.foldlM ExternalModule.script scope).result = .error fault) :
    (p.script d options scope).lines = [] := by
  rw [script, lines_bind_of_error failed, lines_registration]

/-- The line of the header that names the writer. -/
def writerLine (d : Dialect) : Line :=
  .text 0 ("* Written by " ++ d.writerName)

/-- It is the only one of the header that is a dialect's own. -/
theorem headerLines_of_starred (options : Options) (p : Package) :
    ∃ front back, ∀ d ∈ Dialect.starred,
      p.headerLines d options = front ++ writerLine d :: back := by
  have title : ∀ d : Dialect,
      Line.comment .spice 0 ("Written by " ++ d.writerName) = writerLine d := by
    intro d
    cases d <;> decide
  refine ⟨([if p.domain.isEmpty then "Anonymous circuit.Package"
      else "circuit.Package " ++ p.domain] ++ p.description.toList).map (.comment .spice 0),
    (options.header ++ [""]).map (.comment .spice 0) ++ [.blank 0], ?_⟩
  intro d mem
  simp only [headerLines, header, (Dialect.writesAs_of_starred d mem).comment, List.map_append,
    List.map_cons, List.map_nil, title, List.append_assoc, List.cons_append, List.nil_append]

end Package

/-- Where the sink refuses nothing, the text of a package is that of its script, however that
ends. -/
theorem Package.text_of_unlimited (d : Dialect) (options : Options) (p : Package) :
    ((Request.package p).reply d.format options {}).text
      = (Session.shown 0 options (p.script d options .empty).lines).toUTF8 :=
  Request.text_of_unlimited d options (.package p)

/-- The netlists of the dialects that comment with a star are all written or all refused for the
same fault, and their texts are the same up to the one line of the header that names the writer;
there is no text at all where the external modules are refused. The other dialect of the family
accepts the same packages and refuses the others for the same faults. -/
theorem spice_dialects_agree (options : Options) (p : Package) :
    let reply := fun d : Dialect => (Request.package p).reply d.format options {}
    (∀ d : Dialect, d.family = .spice → (reply d).result = (reply .spice).result) ∧
    ((∀ d ∈ Dialect.starred, (reply d).text = .empty) ∨
      ∃ front back, ∀ d ∈ Dialect.starred, (reply d).text
        = (Session.shown 0 options (front ++ Package.writerLine d :: back)).toUTF8) := by
  intro reply
  constructor
  · intro d family
    have same : paramText d = paramText .spice := paramText_congr family
    have expands : d.family ≠ .verilog := by simp [family]
    have expands' : Dialect.spice.family ≠ .verilog := by decide
    rw [Package.result_of_reply d.ofFormat_format expands,
      Package.result_of_reply Dialect.spice.ofFormat_format expands',
      Package.accept_congr same expands expands']
  · have text := fun d => p.text_of_unlimited d options
    cases registration : (p.externals.foldlM ExternalModule.script .empty).result with
    | error fault =>
        left
        intro d _
        rw [text d, Package.lines_of_unregistered d options registration]
        rfl
    | ok registered =>
        right
        obtain ⟨front, back, header⟩ := Package.headerLines_of_starred options p
        refine ⟨front, back ++ (p.modules.foldlM (Module.script .spice) registered).lines, ?_⟩
        intro d mem
        have writes := Dialect.writesAs_of_starred d mem
        rw [text d, Package.lines_of_registered d options registration, header d mem,
          writes.moduleScript, List.append_assoc, List.cons_append]

end CircuitNetlist
