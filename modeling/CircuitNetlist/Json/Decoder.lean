import CircuitNetlist.Json.Basic
import CircuitNetlist.Decimal.Nearest

/-!
# Decoding JSON values

A decoder turns a value into one of a type, or fails. It is given how many arrays and objects
it may still enter, so a text nested deeper than the limit is refused whatever it holds.

A record is an object with its fields in any order, or an array of the fields in their
declared order. Fields that the record does not have are skipped; a known field may not be
repeated. A value of one of several kinds is an object with one field, named for the kind; a
plain choice is the name itself.
-/
namespace CircuitNetlist

/-- How many arrays and objects may be nested. -/
def jsonDepthLimit : Nat :=
  127

/-- Takes the number of levels that may still be entered. -/
abbrev Decoder (α : Type) : Type :=
  Nat → Json → Option α

namespace Decoder

def text : Decoder String
  | _, .string (some s) => some s
  | _, _ => none

/-- The integer of an integral literal. -/
def integer? (n : JsonNumber) : Option Int :=
  if n.integral then
    some (if n.numeral.negative then -(n.numeral.decimal.digits : Int)
      else n.numeral.decimal.digits)
  else none

def int64 : Decoder Int64
  | _, .number n => do
    let i ← integer? n
    if Int64.minValue.toInt ≤ i ∧ i ≤ Int64.maxValue.toInt then some (Int64.ofInt i) else none
  | _, _ => none

def uint64 : Decoder UInt64
  | _, .number n => do
    let i ← integer? n
    if 0 ≤ i ∧ i < UInt64.size then some (UInt64.ofNat i.toNat) else none
  | _, _ => none

/-- Any number within the range of doubles. -/
def double : Decoder Double
  | _, .number n =>
    let x := Double.ofDecimal n.numeral.negative n.numeral.decimal
    if x.isFinite then some x else none
  | _, _ => none

def list {α : Type} (item : Decoder α) : Decoder (List α)
  | depth + 1, .array items => items.mapM (item depth)
  | _, _ => none

/-- Null is no value. -/
def optional {α : Type} (value : Decoder α) : Decoder (Option α)
  | _, .null => some none
  | depth, j => (value depth j).map some

/-- The field of that name, if there is one; a repeated one is an error. -/
def field (fields : List (Option String × Json)) (name : String) : Option (Option Json) :=
  match fields.filter (·.1 == some name) with
  | [] => some none
  | [found] => some (some found.2)
  | _ => none

/-- The values of the named fields, each of which may be missing. -/
def fieldValues (names : List String) : Json → Option (List (Option Json))
  | .array items =>
    if items.length ≤ names.length then
      some (items.map some ++ List.replicate (names.length - items.length) none)
    else none
  | .object fields =>
    if fields.all (·.1.isSome) then names.mapM (field fields) else none
  | _ => none

/-- A record, built from the values of its fields. -/
def record {α : Type} (names : List String) (build : Nat → List (Option Json) → Option α) :
    Decoder α
  | depth + 1, j => (fieldValues names j).bind (build depth)
  | 0, _ => none

/-- A field that may not be missing. -/
def required {α : Type} (value : Decoder α) (depth : Nat) (found : Option Json) : Option α :=
  found.bind (value depth)

/-- A field that has a default when it is missing. -/
def orElse {α : Type} (default : α) (value : Decoder α) (depth : Nat) (found : Option Json) :
    Option α :=
  match found with
  | some j => value depth j
  | none => some default

/-- A value of one of several kinds. -/
def variant {α : Type} (kinds : List (String × Decoder α)) : Decoder α
  | depth + 1, .object [(some tag, j)] => do
    let value ← kinds.lookup tag
    value depth j
  | _, _ => none

/-- A plain choice; its name may also be the one field of an object, with the value null. -/
def choice {α : Type} (names : List (String × α)) : Decoder α
  | _, .string (some name) => names.lookup name
  | _ + 1, .object [(some name, .null)] => names.lookup name
  | _, _ => none

end Decoder

end CircuitNetlist
