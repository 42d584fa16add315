import CircuitNetlist.Decimal.Double
import CircuitNetlist.Decimal.Basic

/-!
# Reading a decimal as a double

The double of a decimal is the one nearest to its exact value, at a tie the one with the even
significand. Values from halfway above the greatest finite double on become infinite; values
up to half the least positive one become zero.
-/
namespace CircuitNetlist

/-- The quotient rounded to the nearest integer, a half to the even one. -/
def roundHalfEven (r : Rat) : Nat :=
  let below := r.floor.toNat
  let twice := 2 * (r - below)
  if twice < 1 then below
  else if 1 < twice then below + 1
  else if below % 2 = 0 then below else below + 1

/-- The greatest `k` with `2 ^ k ≤ r`, for a positive `r`. -/
def binade (r : Rat) : Int :=
  let estimate := (r.num.toNat.log2 : Int) - (r.den.log2 : Int)
  if (2 : Rat) ^ estimate ≤ r then estimate else estimate - 1

namespace Double

/-- The bits, without sign, of the double nearest to `r`. The significand is counted in units of the
last place, and a carry out of it lands in the exponent by itself. -/
def nearestBits (r : Rat) : Nat :=
  let place := max (binade r - 52) (-1074)
  let bits := (place + 1074).toNat * fractionRange + roundHalfEven (r / (2 : Rat) ^ place)
  min bits infinityBits

/-- The double nearest to a decimal with a sign. Far outside the range of doubles the digits no
longer matter, so no power of ten beyond it is computed. -/
def ofDecimal (negative : Bool) (d : Decimal) : Double :=
  if d.digits = 0 then zero negative
  else if 310 < d.leadingExponent then infinity negative
  else if d.leadingExponent < -330 then zero negative
  else ofParts negative (nearestBits d.value)

end Double

end CircuitNetlist
