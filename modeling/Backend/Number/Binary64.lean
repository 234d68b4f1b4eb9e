import Backend.Number.Power

/-! Binary floating-point numbers of 64 bits, held as their pattern: a sign bit, eleven bits of exponent and
    52 bits of fraction. A finite pattern stands for `significand · 2 ^ exponent`, up to its sign, and all
    questions about it are answered in exact integer arithmetic. -/

namespace Backend

/-- A floating-point number of 64 bits. -/
structure Binary64 where
  bits : UInt64
deriving Repr, Inhabited

namespace Binary64

/-- The weight of the sign bit, 2⁶³. -/
def signUnit : Nat := 0x8000000000000000

/-- The weight of the lowest bit of the exponent, 2⁵². -/
def fractionUnit : Nat := 0x10000000000000

/-- The sign bit is set. -/
def negative (x : Binary64) : Bool := signUnit ≤ x.bits.toNat

/-- The pattern without its sign bit. Patterns of positive numbers are in the order of the numbers. -/
def magnitude (x : Binary64) : Nat := x.bits.toNat % signUnit

/-- The magnitude of infinity, the least one that belongs to no finite number. -/
def infinityMagnitude : Nat := 0x7FF0000000000000

def isFinite (x : Binary64) : Bool := x.magnitude < infinityMagnitude

def isInfinite (x : Binary64) : Bool := x.magnitude = infinityMagnitude

def isNaN (x : Binary64) : Bool := infinityMagnitude < x.magnitude

/-- Positive or negative zero. -/
def isZero (x : Binary64) : Bool := x.magnitude = 0

/-- The eleven bits of exponent. -/
def exponentField (x : Binary64) : Nat := x.magnitude / fractionUnit

/-- The 52 bits of fraction. -/
def fractionField (x : Binary64) : Nat := x.magnitude % fractionUnit

/-- The integer that a finite number is a multiple of a power of two of. -/
def significand (x : Binary64) : Nat :=
  if x.exponentField = 0 then x.fractionField else fractionUnit + x.fractionField

/-- The exponent of that power of two. -/
def exponent (x : Binary64) : Int := (max x.exponentField 1 : Nat) - 1075

/-- The number with the given sign and magnitude. -/
def ofMagnitude (negative : Bool) (magnitude : Nat) : Binary64 :=
  ⟨UInt64.ofNat ((if negative then signUnit else 0) + magnitude)⟩

/-- Numeric equality: the two zeros are equal, and so are any two patterns that are no number. -/
def same (x y : Binary64) : Bool :=
  if x.isNaN then y.isNaN else x.bits = y.bits || (x.isZero && y.isZero)

instance : BEq Binary64 := ⟨same⟩

/-- The magnitude of a finite number as a fraction, numerator first. -/
def ratio (x : Binary64) : Nat × Nat :=
  if 0 ≤ x.exponent then (x.significand * power 2 x.exponent.toNat, 1)
  else (x.significand, power 2 (-x.exponent).toNat)

/-- The integer that a number is, if it is one. -/
def toInt? (x : Binary64) : Option Int :=
  let (num, den) := x.ratio
  if x.isFinite && num % den = 0 then
    some (if x.negative then -((num / den : Nat) : Int) else ((num / den : Nat) : Int))
  else none

end Binary64
end Backend
