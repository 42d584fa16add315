import CircuitNetlist.Proofs.SpiceDialects

/-!
# Which header lines are comments

A comment is one line of output with a marker in front. What a reader of the netlist takes for lines
are the parts between line breaks, and a text that has a line break itself puts all but its first
part in front of a line without a marker. So the header is a comment throughout exactly where the
texts that it takes from the package and from the options have nothing else behind their line
breaks.
-/
namespace CircuitNetlist

/-- The lines of a text as it is read: what stands between its line breaks. -/
def physicalLines (text : String) : List (List Char) :=
  text.toList.splitOn '\n'

/-- The line starts with the marker of a comment. -/
def Dialect.Marks (d : Dialect) (line : List Char) : Prop :=
  d.commentMarker.toList <+: line

instance (d : Dialect) (line : List Char) : Decidable (d.Marks line) :=
  inferInstanceAs (Decidable (d.commentMarker.toList <+: line))

/-- What stands behind the line breaks of the text are comments. -/
def Dialect.KeepsMarks (d : Dialect) (text : String) : Prop :=
  ∀ line ∈ (physicalLines text).tail, d.Marks line

/-! ### Line breaks -/

theorem physicalLines_of_unbroken {text : String} (unbroken : '\n' ∉ text.toList) :
    physicalLines text = [text.toList] :=
  List.splitOn_eq_singleton unbroken

/-- A line and what stands below it are read apart. -/
theorem physicalLines_line (text rest : String) :
    physicalLines (text ++ "\n" ++ rest) = physicalLines text ++ physicalLines rest := by
  unfold physicalLines
  rw [String.toList_append, String.toList_append, List.append_assoc]
  exact List.splitOn_append_cons_self text.toList rest.toList

/-- What is put in front without a line break joins the first line. -/
theorem physicalLines_append {front : String} (unbroken : '\n' ∉ front.toList) (text : String) :
    physicalLines (front ++ text) = (physicalLines text).modifyHead (front.toList ++ ·) := by
  unfold physicalLines
  rw [String.toList_append]
  generalize front.toList = cs at unbroken ⊢
  induction cs with
  | nil => exact (congrFun List.modifyHead_id _).symm
  | cons c cs ih =>
      rw [List.mem_cons, not_or] at unbroken
      have other : (c == '\n') = false := beq_false_of_ne (Ne.symm unbroken.1)
      rw [List.cons_append, List.splitOn_cons_eq_if_modifyHead, other, ih unbroken.2,
        List.modifyHead_modifyHead]
      rfl

/-- So what stands behind the line breaks stays. -/
theorem keepsMarks_append {d : Dialect} {front : String} (unbroken : '\n' ∉ front.toList)
    (text : String) : d.KeepsMarks (front ++ text) ↔ d.KeepsMarks text := by
  unfold Dialect.KeepsMarks
  rw [physicalLines_append unbroken, List.tail_modifyHead]

theorem keepsMarks_of_unbroken {d : Dialect} {text : String} (unbroken : '\n' ∉ text.toList) :
    d.KeepsMarks text := by
  unfold Dialect.KeepsMarks
  rw [physicalLines_of_unbroken unbroken]
  exact List.forall_mem_nil _

/-! ### Comments -/

/-- A comment has the marker in front of its first line and of no other one. -/
theorem physicalLines_comment (d : Dialect) (text : String) :
    ∃ first, d.Marks first ∧
      physicalLines (d.comment text) = first :: (physicalLines text).tail := by
  have marker : '\n' ∉ d.commentMarker.toList := by cases d <;> decide
  unfold Dialect.comment Dialect.Marks
  by_cases empty : text.isEmpty
  · have none : text = "" := String.isEmpty_iff.mp empty
    rw [if_pos empty, physicalLines_of_unbroken marker, none]
    exact ⟨_, List.prefix_rfl, rfl⟩
  · have front : '\n' ∉ (d.commentMarker ++ " ").toList := by cases d <;> decide
    rw [if_neg empty, physicalLines_append front]
    cases lines : physicalLines text with
    | nil => exact absurd lines (List.splitOn_ne_nil _ _)
    | cons first others =>
        refine ⟨(d.commentMarker ++ " ").toList ++ first, ?_, rfl⟩
        rw [String.toList_append, List.append_assoc]
        exact List.prefix_append _ _

/-- The lines of some comments, one below the other. -/
def Dialect.commentLines (d : Dialect) (texts : List String) : List (List Char) :=
  texts.flatMap fun text => physicalLines (d.comment text)

theorem marks_commentLines_iff {d : Dialect} {texts : List String} :
    (∀ line ∈ d.commentLines texts, d.Marks line) ↔ ∀ text ∈ texts, d.KeepsMarks text := by
  unfold Dialect.commentLines
  rw [List.forall_mem_flatMap]
  apply forall₂_congr
  intro text _
  obtain ⟨first, marked, lines⟩ := physicalLines_comment d text
  rw [lines, List.forall_mem_cons]
  exact and_iff_right marked

theorem physicalLines_shown (d : Dialect) (options : Options) (texts : List String) :
    physicalLines (Session.shown 0 options (texts.map (.comment d 0) ++ [.blank 0]))
      = d.commentLines texts ++ [[], []] := by
  induction texts with
  | nil =>
      have blank : Session.shown 0 options [.blank 0] = "\n" := by
        simp [Session.shown, Line.shift, Line.render]
      change physicalLines (Session.shown 0 options [.blank 0]) = _
      rw [blank]
      exact (by decide : physicalLines "\n" = [[], []])
  | cons text texts ih =>
      have first : Session.shown 0 options ((text :: texts).map (.comment d 0) ++ [.blank 0])
          = d.comment text ++ "\n"
            ++ Session.shown 0 options (texts.map (.comment d 0) ++ [.blank 0]) := by
        rw [List.map_cons, List.cons_append, ← List.singleton_append, Session.shown_append]
        simp [Session.shown, Line.shift, Line.comment, Line.render]
      rw [first, physicalLines_line, ih, Dialect.commentLines, Dialect.commentLines,
        List.flatMap_cons, List.append_assoc]

/-! ### Headers -/

namespace Package

/-- The texts of a header that come from the package and from the options. -/
def headerTexts (p : Package) (options : Options) : List String :=
  p.domain :: p.description.toList ++ options.header

/-- The text of the header. -/
def headerText (p : Package) (d : Dialect) (options : Options) : String :=
  Session.shown 0 options (p.headerLines d options)

theorem keepsMarks_header_iff {d : Dialect} {options : Options} {p : Package} :
    (∀ text ∈ p.header d options, d.KeepsMarks text) ↔
      ∀ text ∈ p.headerTexts options, d.KeepsMarks text := by
  have title : d.KeepsMarks (if p.domain.isEmpty then "Anonymous circuit.Package"
      else "circuit.Package " ++ p.domain) ↔ d.KeepsMarks p.domain := by
    by_cases anonymous : p.domain.isEmpty
    · have none : p.domain = "" := String.isEmpty_iff.mp anonymous
      rw [if_pos anonymous, none]
      exact iff_of_true (keepsMarks_of_unbroken (by decide)) (keepsMarks_of_unbroken (by decide))
    · rw [if_neg anonymous]
      exact keepsMarks_append (by decide) p.domain
  have writer : d.KeepsMarks ("Written by " ++ d.writerName) := by
    apply keepsMarks_of_unbroken
    cases d <;> decide
  have last : d.KeepsMarks "" := keepsMarks_of_unbroken (by decide)
  simp only [header, headerTexts, List.forall_mem_append, List.forall_mem_cons, title, writer, last,
    List.cons_append, List.nil_append]
  simp

end Package

/-- Every line of a header is a comment, up to the empty one at its end, exactly where this is so
behind the line breaks of the domain, of the description and of the additional lines, as where there
are no line breaks; what a caller writes behind a line break is a line of the netlist. The header
stands in front of the first module, and without it there is no text at all. -/
theorem header_commented_iff (d : Dialect) (options : Options) (p : Package) :
    (∃ lines, physicalLines (p.headerText d options) = lines ++ [[], []] ∧
      ((∀ line ∈ lines, d.Marks line) ↔ ∀ text ∈ p.headerTexts options, d.KeepsMarks text) ∧
      ((∀ text ∈ p.headerTexts options, '\n' ∉ text.toList) → ∀ line ∈ lines, d.Marks line)) ∧
    match (p.externals.foldlM ExternalModule.script .empty).result with
    | .error _ => ((Request.package p).reply d.format options {}).text = .empty
    | .ok registered => ((Request.package p).reply d.format options {}).text
        = (p.headerText d options
          ++ Session.shown 0 options
            (p.modules.foldlM (Module.script d) registered).lines).toUTF8 := by
  have exact_condition : (∀ line ∈ d.commentLines (p.header d options), d.Marks line) ↔
      ∀ text ∈ p.headerTexts options, d.KeepsMarks text :=
    marks_commentLines_iff.trans Package.keepsMarks_header_iff
  constructor
  · refine ⟨d.commentLines (p.header d options), physicalLines_shown d options _,
      exact_condition, ?_⟩
    intro unbroken
    rw [exact_condition]
    intro text mem
    exact keepsMarks_of_unbroken (unbroken text mem)
  · rw [Package.text_of_unlimited]
    cases registration : (p.externals.foldlM ExternalModule.script .empty).result with
    | error fault =>
        rw [Package.lines_of_unregistered d options registration]
        rfl
    | ok registered =>
        rw [Package.lines_of_registered d options registration, Session.shown_append]
        rfl

/-- A description that ends the netlist in its second line. -/
def brokenPackage : Package :=
  { domain := "demo", description := some "first stage\n.end" }

/-- The second line of a description is no comment, and it is written all the same. -/
theorem header_commented_broken :
    ((Request.package brokenPackage).reply .spice {} {}).text
      = (brokenPackage.headerText .spice {}).toUTF8 ∧
    ∃ lines, physicalLines (brokenPackage.headerText .spice {}) = lines ++ [[], []] ∧
      ".end".toList ∈ lines ∧ ¬ ∀ line ∈ lines, Dialect.spice.Marks line := by
  constructor
  · change ((Request.package brokenPackage).reply Dialect.spice.format {} {}).text = _
    rw [Package.text_of_unlimited, Package.lines_of_registered .spice {} rfl]
    rfl
  · refine ⟨["* circuit.Package demo".toList, "* first stage".toList, ".end".toList,
      "* Written by SpiceNetlister".toList, "*".toList], ?_, ?_, ?_⟩
    · decide +kernel
    · decide
    · intro marked
      exact absurd (marked ".end".toList (by decide)) (by decide)

end CircuitNetlist
