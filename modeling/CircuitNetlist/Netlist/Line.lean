import CircuitNetlist.Parameter.Table

/-!
# Lines

Netlist text is a sequence of lines, each at a depth of nesting that decides its indentation.
Blank lines are never indented, but they stand at a depth all the same.
-/
namespace CircuitNetlist

inductive Line where
  | text (depth : Nat) (content : String)
  | blank (depth : Nat)
deriving DecidableEq, Repr

namespace Line

def depth : Line → Nat
  | text depth _ => depth
  | blank depth => depth

/-- The line with its end, under the given indentation of a level. -/
def render (indent : String) : Line → String
  | text depth content => String.join (List.replicate depth indent) ++ content ++ "\n"
  | blank _ => "\n"

/-- The line, so many levels deeper. -/
def shift (levels : Nat) : Line → Line
  | text depth content => text (levels + depth) content
  | blank depth => blank (levels + depth)

/-- A comment line. -/
def comment (d : Dialect) (depth : Nat) (content : String) : Line :=
  text depth (d.comment content)

/-- A continuation line. -/
def continuation (depth : Nat) (content : String) : Line :=
  text depth ("+ " ++ content)

end Line

/-- Words on a continuation line, or a comment where there are none. -/
def continuationOr (d : Dialect) (depth : Nat) (otherwise content : String) : Line :=
  if content.isEmpty then .comment d depth otherwise else .continuation depth content

/-- The parameters on a continuation line, behind a keyword if the dialect has one. -/
def paramsLine (d : Dialect) (depth : Nat) (keyword : Option String) (params : ParamTable) : Line :=
  if params.isEmpty then .comment d depth "No parameters"
  else
    let assignments := " ".intercalate (params.assignments d)
    match keyword with
    | some word => .continuation depth (word ++ " " ++ assignments)
    | none => .continuation depth assignments

/-- The lines of a list in parentheses: every entry but the last ends with a comma. -/
def commaLines : List String → List String
  | [] => []
  | [item] => [item]
  | item :: items => (item ++ ",") :: commaLines items

@[simp] theorem length_commaLines (items : List String) :
    (commaLines items).length = items.length := by
  fun_induction commaLines items <;> simp_all

end CircuitNetlist
