/-!
# Decimals

A decimal is a natural number of units of a power of ten. Two decimals of the same value may
differ in trailing zeros; `normalize` keeps the one without.
-/
namespace CircuitNetlist

/-- The number `digits * 10 ^ exponent`. -/
structure Decimal where
  digits : Nat
  exponent : Int
deriving DecidableEq, Repr, Inhabited

/-- How many digits a natural number is written with; zero has one. -/
def digitCount (n : Nat) : Nat :=
  (Nat.toDigits 10 n).length

namespace Decimal

def value (d : Decimal) : Rat :=
  d.digits * (10 : Rat) ^ d.exponent

/-- Moves up to `fuel` trailing zeros of `n` into the exponent. -/
def strip : Nat → Nat → Int → Decimal
  | 0, n, e => ⟨n, e⟩
  | fuel + 1, n, e => if n % 10 = 0 then strip fuel (n / 10) (e + 1) else ⟨n, e⟩

/-- The decimal of the same value that has no trailing zero; zero keeps no exponent. -/
def normalize (d : Decimal) : Decimal :=
  if d.digits = 0 then ⟨0, 0⟩ else strip (digitCount d.digits) d.digits d.exponent

theorem value_strip (fuel n : Nat) (e : Int) : (strip fuel n e).value = (mk n e).value := by
  induction fuel generalizing n e with
  | zero => rfl
  | succ fuel ih =>
    unfold strip
    split
    · rw [ih]
      simp only [value]
      have h : (n : Rat) = (n / 10 : Nat) * (10 : Rat) := by
        have : n = n / 10 * 10 := by omega
        exact_mod_cast this
      rw [Rat.zpow_add_one (by decide), h, Rat.mul_assoc, Rat.mul_comm (10 : Rat)]
    · rfl

/-- Normalizing keeps the value. -/
theorem value_normalize (d : Decimal) : d.normalize.value = d.value := by
  unfold normalize
  split
  · next h => simp [value, h]
  · exact value_strip _ _ _

/-- The exponent of the leading digit. -/
def leadingExponent (d : Decimal) : Int :=
  d.exponent + digitCount d.digits - 1

end Decimal

end CircuitNetlist
