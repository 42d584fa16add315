import CircuitNetlist.Parameter.Text

/-!
# Parameter tables

The parameters of one instance, in the order in which they will be written. A table is a list
of names with their texts; no operation makes a name occur twice.
-/
namespace CircuitNetlist

/-- Parameters in order. -/
structure ParamTable where
  entries : List (String × ValueText) := []
deriving DecidableEq, Repr, Inhabited

namespace ParamTable

def empty : ParamTable :=
  {}

def size (t : ParamTable) : Nat :=
  t.entries.length

def isEmpty (t : ParamTable) : Bool :=
  t.entries.isEmpty

def names (t : ParamTable) : List String :=
  t.entries.map (·.1)

/-- The text stored under a name. -/
def get? (t : ParamTable) (name : String) : Option ValueText :=
  t.entries.lookup name

def contains (t : ParamTable) (name : String) : Bool :=
  t.names.contains name

/-- The place of a name in the order. -/
def indexOf? (t : ParamTable) (name : String) : Option Nat :=
  t.names.idxOf? name

/-- The table without a name. -/
def erase (t : ParamTable) (name : String) : ParamTable :=
  ⟨t.entries.filter fun entry => entry.1 != name⟩

/-- Stores a text. A name that is there keeps its place; a new one goes to the end. -/
def set (t : ParamTable) (name : String) (text : ValueText) : ParamTable :=
  if t.contains name then
    ⟨t.entries.map fun entry => if entry.1 = name then (name, text) else entry⟩
  else ⟨t.entries ++ [(name, text)]⟩

/-- Stores a text at the given place, counted without the name's own old entry. -/
def insertAt (t : ParamTable) (index : Nat) (name : String) (text : ValueText) : ParamTable :=
  let rest := (t.erase name).entries
  ⟨rest.take index ++ (name, text) :: rest.drop index⟩

/-- Stores a text at the front, wherever the name was before. -/
def setFirst (t : ParamTable) (name : String) (text : ValueText) : ParamTable :=
  t.insertAt 0 name text

/-- Takes a parameter out; the others keep their order. -/
def pop (t : ParamTable) (name : String) : Except Cause (ValueText × ParamTable) :=
  match t.get? name with
  | some text => .ok (text, t.erase name)
  | none => .error (.missingParameter name)

/-- Takes several parameters out, in the given order. The table is the one left, also where a name
was missing. -/
def popMany (t : ParamTable) : List String → Except Cause (List ValueText) × ParamTable
  | [] => (.ok [], t)
  | name :: names =>
    match t.pop name with
    | .error cause => (.error cause, t)
    | .ok (text, rest) =>
      match rest.popMany names with
      | (.ok texts, rest) => (.ok (text :: texts), rest)
      | (.error cause, rest) => (.error cause, rest)

/-- Gives an entry a new name at its place; a missing one is left alone. An entry that has the new
name already is replaced. -/
def rename (t : ParamTable) (source target : String) : ParamTable :=
  match t.indexOf? source, t.get? source with
  | some index, some text => (t.erase source).insertAt index target text
  | _, _ => t

/-- The place of the renamed entry is a place of the table without it: behind its last entry only if
the new name is not among them. -/
def RenameFits (t : ParamTable) (source target : String) : Prop :=
  ∀ index, t.indexOf? source = some index →
    let rest := t.erase source
    index ≤ rest.size ∧ (rest.contains target → index < rest.size)

/-- The parameters as `name=value`. -/
def assignments (t : ParamTable) (d : Dialect) : List String :=
  t.entries.map fun entry => entry.1 ++ "=" ++ entry.2.render d

end ParamTable

end CircuitNetlist
