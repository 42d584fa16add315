import CircuitNetlist.Decimal.Double
import CircuitNetlist.Decimal.Basic

/-!
# The shortest decimal of a double

The reals that round to a double form an interval around it. Of the decimals in that interval
the shortest is found grid by grid: with one digit, two digits and so on, only the two
neighbours of the double on the grid need be tried, since any grid point of the interval has
one of them between itself and the double.
-/
namespace CircuitNetlist

/-- Where two candidates are equally close, which of them is taken. -/
inductive Tie where
  | up
  | toEven
deriving DecidableEq, Repr

namespace Double

/-- Halfway to the neighbour below. -/
def lowerEnd (x : Double) : Rat :=
  (if x.isNarrowBelow then 4 * x.significand - 1 else 4 * x.significand - 2 : Nat)
    * (2 : Rat) ^ (x.exponent - 2)

/-- Halfway to the neighbour above. -/
def upperEnd (x : Double) : Rat :=
  (4 * x.significand + 2 : Nat) * (2 : Rat) ^ (x.exponent - 2)

/-- The real `r` rounds to the magnitude of `x`: to nearest, and at a tie to the even
significand, so the ends of the interval belong to an even one. -/
def isRoundingOf (x : Double) (r : Rat) : Bool :=
  if x.significand % 2 = 0 then x.lowerEnd ≤ r && r ≤ x.upperEnd
  else x.lowerEnd < r && r < x.upperEnd

end Double

/-- The least `k` with `r < 10 ^ k`, for a positive `r`. -/
def decade (r : Rat) : Int :=
  if 1 ≤ r then digitCount r.floor.toNat
  else
    let count := digitCount r⁻¹.floor.toNat
    if r⁻¹ = (10 : Rat) ^ (count - 1) then 2 - (count : Int) else 1 - (count : Int)

/-- Of the two grid points around `x`, the one that reads back; of two such the closer. -/
def Double.onGrid (x : Double) (tie : Tie) (grid : Int) : Option Decimal :=
  let step := (10 : Rat) ^ grid
  let below := (x.magnitude / step).floor.toNat
  let above := below + 1
  match x.isRoundingOf (below * step), x.isRoundingOf (above * step) with
  | false, false => none
  | true, false => some ⟨below, grid⟩
  | false, true => some ⟨above, grid⟩
  | true, true =>
    let middle := (2 * below + 1 : Nat) * step
    if 2 * x.magnitude < middle then some ⟨below, grid⟩
    else if middle < 2 * x.magnitude then some ⟨above, grid⟩
    else match tie with
      | .up => some ⟨above, grid⟩
      | .toEven => some ⟨if below % 2 = 0 then below else above, grid⟩

/-- The magnitude itself as a decimal: a power of two is a decimal of as many places. -/
def Double.exactDecimal (x : Double) : Decimal :=
  if x.exponent < 0 then ⟨x.significand * Nat.pow 5 (-x.exponent).toNat, x.exponent⟩
  else ⟨x.significand * Nat.pow 2 x.exponent.toNat, 0⟩

/-- The fewest digits that read back to the magnitude of a finite double other than zero. Seventeen
digits always do; the exact decimal stands behind them only to make the search total. -/
def Double.shortest (x : Double) (tie : Tie) : Decimal :=
  let top := decade x.magnitude
  let found := (List.range 17).findSome? fun n : Nat => x.onGrid tie (top - (n + 1 : Nat))
  (found.getD x.exactDecimal).normalize

end CircuitNetlist
