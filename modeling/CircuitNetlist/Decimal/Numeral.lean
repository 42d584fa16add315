import CircuitNetlist.Decimal.Basic

/-!
# Decimal numerals

A numeral is an optional sign, digits with at most one point among them, and an optional
exponent. `scan` takes the longest one from the front of a text; what follows a numeral, such
as a scale letter, is left in the rest.
-/
namespace CircuitNetlist

/-- A decimal with a sign; zero may be negative. -/
structure Numeral where
  negative : Bool
  decimal : Decimal
deriving DecidableEq, Repr, Inhabited

/-- The value of a string of decimal digits. -/
def digitsValue (digits : List Char) : Nat :=
  Nat.ofDigitChars 10 digits 0

/-- The longest run of digits, and what follows it. -/
def splitDigits (cs : List Char) : List Char × List Char :=
  (cs.takeWhile Char.isDigit, cs.dropWhile Char.isDigit)

namespace Numeral

def value (n : Numeral) : Rat :=
  if n.negative then -n.decimal.value else n.decimal.value

/-- An optional sign: whether it is a minus, and the rest. -/
def scanSign : List Char → Bool × List Char
  | '-' :: cs => (true, cs)
  | '+' :: cs => (false, cs)
  | cs => (false, cs)

/-- An exponent, if the text starts with a complete one; otherwise nothing is taken. -/
def scanExponent (cs : List Char) : Int × List Char :=
  match cs with
  | c :: rest =>
    if c = 'e' ∨ c = 'E' then
      let (negative, rest) := scanSign rest
      let (digits, rest) := splitDigits rest
      if digits.isEmpty then (0, cs)
      else (if negative then -(digitsValue digits : Int) else digitsValue digits, rest)
    else (0, cs)
  | [] => (0, [])

/-- The digits behind a point, if there is a point. -/
def scanFraction : List Char → List Char × List Char
  | '.' :: cs => splitDigits cs
  | cs => ([], cs)

/-- The longest numeral at the front of the text. -/
def scan (cs : List Char) : Option (Numeral × List Char) :=
  let (negative, cs) := scanSign cs
  let (whole, cs) := splitDigits cs
  let (fraction, cs) := scanFraction cs
  if whole.isEmpty && fraction.isEmpty then none
  else
    let (exponent, cs) := scanExponent cs
    some (⟨negative, ⟨digitsValue (whole ++ fraction), exponent - fraction.length⟩⟩, cs)

/-- The text is one numeral and nothing else. -/
def isNumeral (cs : List Char) : Bool :=
  match scan cs with
  | some (_, []) => true
  | _ => false

/-- The words, in any case, that stand for the doubles that are no numbers. -/
def specialWords : List (List Char) :=
  [['i', 'n', 'f'], ['i', 'n', 'f', 'i', 'n', 'i', 't', 'y'], ['n', 'a', 'n']]

/-- The text names a double: a numeral, or a special word with an optional sign. -/
def namesDouble (cs : List Char) : Bool :=
  isNumeral cs || specialWords.contains ((scanSign cs).2.map Char.toLower)

end Numeral

end CircuitNetlist
