import CircuitNetlist.Decimal.Layout
import CircuitNetlist.Decimal.Numeral

/-!
# JSON values

A JSON value keeps the order and the repetitions of its fields, and of every number whether it
was written as an integer. A string with an unpaired surrogate escape has no text: such a value
may be skipped but not used.
-/
namespace CircuitNetlist

/-- A number literal. An integral one has exponent zero; any other is without trailing zeros. -/
structure JsonNumber where
  numeral : Numeral
  integral : Bool
deriving DecidableEq, Repr

inductive Json where
  | null
  | bool (value : Bool)
  | number (value : JsonNumber)
  /-- The text, or nothing for a string with an unpaired surrogate. -/
  | string (text : Option String)
  | array (items : List Json)
  | object (fields : List (Option String × Json))
deriving Repr, Inhabited

namespace Json

def ofString (text : String) : Json :=
  .string (some text)

def ofInt (value : Int) : Json :=
  .number ⟨⟨value < 0, ⟨value.natAbs, 0⟩⟩, true⟩

/-- A double is written with the fewest digits that read back, at a tie with an even last one. One
that is no number becomes null. -/
def ofDouble (x : Double) : Json :=
  if x.isFinite then
    .number ⟨⟨x.isNegative, if x.isZero then ⟨0, 0⟩ else x.shortest .toEven⟩, false⟩
  else .null

def ofList {α : Type} (encode : α → Json) (xs : List α) : Json :=
  .array (xs.map encode)

/-- An object with the given fields. -/
def ofFields (fields : List (String × Json)) : Json :=
  .object (fields.map fun field => (some field.1, field.2))

/-- A value under the name of its kind. -/
def tagged (tag : String) (value : Json) : Json :=
  ofFields [(tag, value)]

end Json

end CircuitNetlist
