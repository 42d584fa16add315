import CircuitNetlist.Decimal.Layout
import CircuitNetlist.Decimal.Numeral
import CircuitNetlist.Dialect
import CircuitNetlist.Text.Blank

/-!
# The text of parameter values

Every value has a text in each dialect. A number with a scale is its mantissa followed by the
dialect's scale letters, or by an exponent where the dialect has no letters for the scale; a
mantissa that has an exponent already cannot take a second one.
-/
namespace CircuitNetlist

/-- Doubles are positional from `1e-4` up to `1e16` and keep a digit behind the point; otherwise
they have an exponent without a plus sign. -/
def netlistLayout : Layout where
  plainFrom := -4
  plainBelow := 16
  signedExponent := false
  tie := .up

/-- The shortest text that reads back to the same double. -/
def Double.text (x : Double) : String :=
  netlistLayout.render x

/-- A value as text. The text of a literal becomes an expression where it is written. -/
structure ValueText where
  text : String
  isExpression : Bool := false
deriving DecidableEq, Repr, Inhabited

namespace ValueText

/-- What is written for the value in a dialect. -/
def render (v : ValueText) (d : Dialect) : String :=
  if v.isExpression then d.expression v.text else v.text

end ValueText

/-- The text of a mantissa. One given as text loses the blanks around it and has to name a
double. -/
def Mantissa.textOf : Mantissa → Except ValueFault String
  | .int i => .ok (toString i.toInt)
  | .double x => if x.isFinite then .ok x.text else .error .nonFiniteMantissa
  | .text s =>
    let trimmed := trim s.toList
    if Numeral.namesDouble trimmed then .ok (String.ofList trimmed)
    else .error .mantissaNotNumber

/-- The text has an exponent letter, in either case. -/
def hasExponentLetter (s : String) : Bool :=
  s.toList.any fun c => c == 'e' || c == 'E'

/-- A mantissa and its scale, without anything between them. -/
def Scaled.textOf (d : Dialect) (s : Scaled) : Except ValueFault String := do
  let mantissa ← s.mantissa.textOf
  let scale := d.scaleText s.scale
  if scale.toList.head? = some 'e' && hasExponentLetter mantissa then throw .exponentTwice
  return mantissa ++ scale

/-- The text of a value, or why it has none. -/
def Value.textOf (d : Dialect) : Value → Except ValueFault ValueText
  | .int i => .ok { text := toString i.toInt }
  | .double x => if x.isFinite then .ok { text := x.text } else .error .nonFiniteDouble
  | .text s => .ok { text := "\"" ++ s ++ "\"" }
  | .literal s => .ok { text := s, isExpression := true }
  | .scaled s => do return { text := ← s.textOf d }

/-- The text of the value of a named parameter. -/
def paramText (d : Dialect) (name : String) (value : Value) : Except Cause ValueText :=
  (value.textOf d).mapError (.invalidValue name)

end CircuitNetlist
