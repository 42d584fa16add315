import CircuitNetlist.Decimal.Shortest

/-!
# How decimals are laid out

A layout holds the decisions of one number format: between which exponents a number is written
positionally, whether a positive exponent carries a plus sign, and which of two equally close
digit strings is taken. Positional text always has a digit on both sides of the point.
-/
namespace CircuitNetlist

/-- The decisions of a number format. -/
structure Layout where
  /-- Numbers whose leading digit has at least this exponent are positional. -/
  plainFrom : Int
  /-- Numbers whose leading digit has at least this exponent are not. -/
  plainBelow : Int
  /-- Whether a positive exponent is signed. -/
  signedExponent : Bool
  tie : Tie

namespace Layout

/-- Positional text of `digits * 10 ^ exponent`. -/
def plain (digits : List Char) (exponent : Int) : List Char :=
  if 0 ≤ exponent then digits ++ List.replicate exponent.toNat '0' ++ ['.', '0']
  else
    let places := (-exponent).toNat
    let padded := List.replicate (places + 1 - digits.length) '0' ++ digits
    padded.take (padded.length - places) ++ '.' :: padded.drop (padded.length - places)

/-- The text of an exponent. -/
def exponentText (layout : Layout) (e : Int) : List Char :=
  if e < 0 then '-' :: Nat.toDigits 10 e.natAbs
  else if layout.signedExponent then '+' :: Nat.toDigits 10 e.natAbs
  else Nat.toDigits 10 e.natAbs

/-- Exponent text: one digit, the others behind a point, and the exponent of the first. -/
def scientific (layout : Layout) (digits : List Char) (leading : Int) : List Char :=
  let rest := digits.drop 1
  digits.take 1 ++ (if rest.isEmpty then [] else '.' :: rest) ++ 'e' :: layout.exponentText leading

/-- The text of a decimal other than zero. -/
def decimal (layout : Layout) (d : Decimal) : List Char :=
  let digits := Nat.toDigits 10 d.digits
  let leading := d.leadingExponent
  if layout.plainFrom ≤ leading && leading < layout.plainBelow then plain digits d.exponent
  else layout.scientific digits leading

/-- The text of a finite double's magnitude. -/
def magnitude (layout : Layout) (x : Double) : List Char :=
  if x.isZero then ['0', '.', '0'] else layout.decimal (x.shortest layout.tie)

/-- The text of a double, the three that are no numbers included. -/
def render (layout : Layout) (x : Double) : String :=
  if x.isNaN then "NaN"
  else
    let sign := if x.isNegative then ['-'] else []
    let body := if x.isFinite then layout.magnitude x else ['i', 'n', 'f']
    String.ofList (sign ++ body)

end Layout

end CircuitNetlist
