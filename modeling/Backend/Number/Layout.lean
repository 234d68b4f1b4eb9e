import Backend.Number.Shortest

/-! The written form of a finite binary number: its shortest digits, either around a point or with an exponent
    of ten. A layout says where the first form ends and how the exponent is written. -/

namespace Backend

/-- How numbers are written. Positional notation is used for exponents of the leading digit from `least` to
    `greatest`; `plus` puts a sign before positive exponents too. -/
structure Layout where
  least : Int
  greatest : Int
  plus : Bool
  tie : Tie

namespace Layout

/-- Digits around a point that stands after the first `point` of them, with a digit on both sides of it. -/
def positional (digits : List Char) (point : Int) : List Char :=
  if point ≤ 0 then '0' :: '.' :: (List.replicate (-point).toNat '0' ++ digits)
  else
    let before := digits.take point.toNat
    let after := digits.drop point.toNat
    before ++ List.replicate (point.toNat - digits.length) '0' ++ '.' :: (if after.isEmpty then ['0'] else after)

/-- One digit, a point if more follow, and the exponent of the first digit. -/
def exponential (plus : Bool) (digits : List Char) (exponent : Int) : List Char :=
  let sign := if exponent < 0 then ['-'] else if plus then ['+'] else []
  let fraction := digits.drop 1
  digits.take 1 ++ (if fraction.isEmpty then [] else '.' :: fraction) ++
    'e' :: (sign ++ Nat.toDigits 10 exponent.natAbs)

/-- The text of a finite number. -/
def write (layout : Layout) (x : Binary64) : List Char :=
  let sign := if x.negative then ['-'] else []
  if x.isZero then sign ++ ['0', '.', '0']
  else
    let d := x.shortest layout.tie
    let digits := Nat.toDigits 10 d.coefficient
    let point : Int := d.exponent + digits.length
    sign ++ if layout.least < point ∧ point ≤ layout.greatest + 1 then positional digits point
      else exponential layout.plus digits (point - 1)

end Layout
end Backend
