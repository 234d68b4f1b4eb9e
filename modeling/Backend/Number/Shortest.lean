import Backend.Number.Rounding

/-! The shortest decimal that reads back as a given binary number. On the grid of all multiples of a power of
    ten only the two neighbours of the number can be the nearest; the coarsest grid on which one of them reads
    back has the fewest digits. -/

namespace Backend

/-- A decimal number `coefficient · 10 ^ exponent`. -/
structure Scientific where
  coefficient : Nat
  exponent : Int
deriving Repr, DecidableEq

/-- Which of two equally near decimals is taken. -/
inductive Tie where
  | up
  | toEven
deriving Repr, DecidableEq

namespace Binary64

/-- Whether a decimal reads back as the magnitude of `x`. -/
def readsBack (x : Binary64) (d : Scientific) : Bool :=
  (ofDecimal false d.coefficient d.exponent).bits = (ofMagnitude false x.magnitude).bits

/-- The exact decimal form of the magnitude of `x`: halves become fives of the next place. -/
def exact (x : Binary64) : Scientific :=
  if 0 ≤ x.exponent then ⟨x.significand * power 2 x.exponent.toNat, 0⟩
  else ⟨x.significand * power 5 (-x.exponent).toNat, x.exponent⟩

/-- The neighbour of `x` among the multiples of `10 ^ exponent` that reads back and is the nearer one. -/
def onGrid (tie : Tie) (x : Binary64) (exponent : Int) : Option Scientific :=
  let (num, den) := x.ratio
  let num := if exponent < 0 then num * power 10 (-exponent).toNat else num
  let den := if exponent < 0 then den else den * power 10 exponent.toNat
  let lower : Scientific := ⟨num / den, exponent⟩
  let upper : Scientific := ⟨num / den + 1, exponent⟩
  match x.readsBack lower, x.readsBack upper with
  | false, false => none
  | true, false => some lower
  | false, true => some upper
  | true, true =>
    let rest := 2 * (num % den)
    if rest < den then some lower
    else if den < rest then some upper
    else match tie with
      | .up => some upper
      | .toEven => some (if num / den % 2 = 0 then lower else upper)

/-- The first hit on `count` grids, each ten times finer than the one before. -/
def searchGrids (tie : Tie) (x : Binary64) : Nat → Int → Option Scientific
  | 0, _ => none
  | count + 1, exponent => (onGrid tie x exponent).or (searchGrids tie x count (exponent - 1))

/-- The exponent of a power of ten above the magnitude of `x`, by at most two places. -/
def topExponent (x : Binary64) : Int := (x.exponent + (x.significand.log2 : Int) + 1) * 30103 / 100000 + 1

/-- The shortest decimal that reads back as the magnitude of `x`, the nearest to it among those. Seventeen
    digits always suffice; the exact form stands where a search of that many places would end. -/
def shortest (tie : Tie) (x : Binary64) : Scientific := (searchGrids tie x 19 x.topExponent).getD x.exact

end Binary64
end Backend
