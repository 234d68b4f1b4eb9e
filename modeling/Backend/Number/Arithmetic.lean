import Backend.Number.Rounding

/-! Product and quotient of binary numbers: the exact one, rounded once. Both take finite numbers. -/

namespace Backend
namespace Binary64

/-- The product of two finite numbers. -/
def mul (x y : Binary64) : Binary64 :=
  ofRatio (x.negative != y.negative) (x.ratio.1 * y.ratio.1) (x.ratio.2 * y.ratio.2)

/-- The quotient of a finite number by a finite number other than zero. -/
def div (x y : Binary64) : Binary64 :=
  ofRatio (x.negative != y.negative) (x.ratio.1 * y.ratio.2) (x.ratio.2 * y.ratio.1)

/-- The number nearest to a natural number. -/
def ofNat (n : Nat) : Binary64 := ofRatio false n 1

/-- The number nearest to a power of ten. -/
def tenTo (n : Nat) : Binary64 := ofNat (power 10 n)

/-- The number with its sign set or not. -/
def withSign (negative : Bool) (x : Binary64) : Binary64 := ofMagnitude negative x.magnitude

end Binary64
end Backend
