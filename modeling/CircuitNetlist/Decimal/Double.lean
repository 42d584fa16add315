/-!
# Double-precision numbers

A double is its sixty-four bits: a sign, eleven bits of exponent and fifty-two bits of
fraction. A finite double denotes `significand * 2 ^ exponent`, with a sign. Holding the bits
keeps the two zeros apart and makes equality decidable.
-/
namespace CircuitNetlist

/-- A binary64 number, given by its bits. -/
structure Double where
  bits : UInt64
deriving DecidableEq, Repr, Inhabited

namespace Double

/-- Two to the power 63, the weight of the sign bit. -/
def signWeight : Nat :=
  0x8000000000000000

/-- Two to the power 52: the weight of the lowest exponent bit, and of the one that is left out
in front of the fraction. -/
def fractionRange : Nat :=
  0x10000000000000

def isNegative (x : Double) : Bool :=
  signWeight ≤ x.bits.toNat

/-- The eleven exponent bits; all ones mark the infinities and NaN. -/
def biasedExponent (x : Double) : Nat :=
  x.bits.toNat / fractionRange % 2048

def fraction (x : Double) : Nat :=
  x.bits.toNat % fractionRange

def isFinite (x : Double) : Bool :=
  x.biasedExponent != 2047

def isNaN (x : Double) : Bool :=
  x.biasedExponent == 2047 && x.fraction != 0

def isZero (x : Double) : Bool :=
  x.biasedExponent == 0 && x.fraction == 0

/-- The integer significand: a normal double has its leading one restored. -/
def significand (x : Double) : Nat :=
  if x.biasedExponent = 0 then x.fraction else fractionRange + x.fraction

/-- The power of two that scales the significand. -/
def exponent (x : Double) : Int :=
  if x.biasedExponent = 0 then -1074 else x.biasedExponent - 1075

/-- The absolute value of a finite double. -/
def magnitude (x : Double) : Rat :=
  x.significand * (2 : Rat) ^ x.exponent

/-- Below a power of two the next double is only half as far away as above it. -/
def isNarrowBelow (x : Double) : Bool :=
  x.fraction == 0 && 1 < x.biasedExponent

/-- The order `x ≤ 0`, in which NaN is below nothing. -/
def atMostZero (x : Double) : Bool :=
  !x.isNaN && (x.isNegative || x.isZero)

/-- A double from its sign and the remaining sixty-three bits. -/
def ofParts (negative : Bool) (rest : Nat) : Double :=
  ⟨UInt64.ofNat (if negative then signWeight + rest else rest)⟩

/-- The bits of infinity, without its sign. -/
def infinityBits : Nat :=
  2047 * fractionRange

def zero (negative : Bool) : Double :=
  ofParts negative 0

def infinity (negative : Bool) : Double :=
  ofParts negative infinityBits

end Double

end CircuitNetlist
