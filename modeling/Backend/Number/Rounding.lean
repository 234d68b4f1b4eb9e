import Backend.Number.Binary64

/-! The binary number nearest to an exact one. Of two equally near the one with the even significand is taken;
    what lies past the largest finite number by half a unit or more becomes infinite. -/

namespace Backend

/-- The integer nearest to `num / den`, the even one of two. -/
def roundDiv (num den : Nat) : Nat :=
  let q := num / den
  let r := num % den
  if 2 * r < den ∨ (2 * r = den ∧ q % 2 = 0) then q else q + 1

namespace Binary64

/-- The exponent of the largest power of two that is at most `num / den`. -/
def floorLog2 (num den : Nat) : Int :=
  let e : Int := (num.log2 : Int) - den.log2
  let reached := if 0 ≤ e then den * power 2 e.toNat ≤ num else den ≤ num * power 2 (-e).toNat
  if reached then e else e - 1

/-- The exponent of the unit in which numbers near `num / den` are counted. -/
def unitExponent (num den : Nat) : Int := max (floorLog2 num den - 52) (-1074)

/-- The magnitude nearest to `num / den`. As neighbouring numbers have neighbouring patterns, a count of units
    is added to the pattern of the first number of that unit, and a carry is right by itself. -/
def nearestMagnitude (num den : Nat) : Nat :=
  if num = 0 then 0
  else
    let e := unitExponent num den
    let units := if 0 ≤ e then roundDiv num (den * power 2 e.toNat) else roundDiv (num * power 2 (-e).toNat) den
    min ((e + 1074).toNat * fractionUnit + units) infinityMagnitude

/-- The number nearest to the fraction `num / den`. -/
def ofRatio (negative : Bool) (num den : Nat) : Binary64 := ofMagnitude negative (nearestMagnitude num den)

/-- The number nearest to `coefficient · 10 ^ exponent`. An exponent that puts the result far outside the
    range of finite numbers is answered at once. -/
def ofDecimal (negative : Bool) (coefficient : Nat) (exponent : Int) : Binary64 :=
  if coefficient = 0 then ofMagnitude negative 0
  else if 400 < exponent then ofMagnitude negative infinityMagnitude
  else if exponent < -(400 + coefficient.log2 : Int) then ofMagnitude negative 0
  else if 0 ≤ exponent then ofRatio negative (coefficient * power 10 exponent.toNat) 1
  else ofRatio negative coefficient (power 10 (-exponent).toNat)

end Binary64
end Backend
