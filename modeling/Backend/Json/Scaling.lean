import Backend.Json.Value
import Backend.Number.Arithmetic

/-! The binary number that a JSON number is read as. Its digits are gathered into a coefficient of 64 bits for
    as long as they fit, the rest only counts, and the coefficient is multiplied or divided by a power of ten.
    Coefficient, power and result are each rounded, so the result can be a neighbour of the nearest number. -/

namespace Backend
namespace Json

/-- The largest coefficient. -/
def maxCoefficient : Nat := 0xFFFFFFFFFFFFFFFF

/-- Goes on with a coefficient for as long as the digits fit, and leaves the others. -/
def gather (coefficient : Nat) : List Char → Nat × List Char
  | [] => (coefficient, [])
  | d :: ds =>
    let next := coefficient * 10 + (d.toNat - '0'.toNat)
    if next ≤ maxCoefficient then gather next ds else (coefficient, d :: ds)

/-- Coefficient and exponent of a numeral. A digit before the point that is left out raises the exponent, one
    after the point is lost. -/
def Numeral.scaled (n : Numeral) : Nat × Int :=
  let (whole, dropped) := gather 0 n.whole
  let fraction := n.fraction.getD []
  let (coefficient, lost) := gather whole fraction
  (coefficient, n.exponent.getD 0 + dropped.length - ((fraction.length - lost.length : Nat) : Int))

/-- The largest exponent whose power of ten is finite. -/
def maxExponent : Nat := 308

/-- Divides by the largest power of ten some times, or until nothing is left. -/
def shrink (x : Binary64) : Nat → Binary64
  | 0 => x
  | times + 1 => if x.isZero then x else shrink (x.div (.tenTo maxExponent)) times

/-- A number divided by a power of ten, in steps if the power is not finite. -/
def divideByTen (x : Binary64) (n : Nat) : Binary64 :=
  let times := (n - 1) / maxExponent
  (shrink x times).div (.tenTo (n - times * maxExponent))

/-- A number multiplied by a power of ten, if the result is finite. -/
def multiplyByTen? (x : Binary64) (n : Nat) : Option Binary64 :=
  if maxExponent < n then none
  else
    let y := x.mul (.tenTo n)
    if y.isFinite then some y else none

/-- The binary number of a numeral; `none` if it is too large. -/
def Numeral.toBinary64? (n : Numeral) : Option Binary64 :=
  let (coefficient, exponent) := n.scaled
  let x := Binary64.ofNat coefficient
  let y? := if coefficient = 0 then some x
    else if 0 ≤ exponent then multiplyByTen? x exponent.toNat
    else some (divideByTen x (-exponent).toNat)
  y?.map (.withSign n.negative)

end Json
end Backend
