import Backend.Number.Rounding

/-! Exact decimal numbers: an integer of 128 bits over a power of ten. The written form keeps its trailing
    zeros, so `1.0` and `1.00` are different numbers of the same value. -/

namespace Backend

/-- The number `mantissa / 10 ^ scale`. -/
structure Decimal where
  mantissa : Int
  scale : Nat
deriving Repr, DecidableEq, Inhabited

namespace Decimal

/-- What a mantissa can hold: the integers of 128 bits, from -2¹²⁷ up to 2¹²⁷ - 1. -/
def InRange (n : Int) : Prop := -0x80000000000000000000000000000000 ≤ n ∧ n < 0x80000000000000000000000000000000

instance (n : Int) : Decidable (InRange n) := inferInstanceAs (Decidable (_ ∧ _))

/-- The greatest number of digits after the point. -/
def maxScale : Nat := 28

/-- Zero, without a fraction. -/
def zero : Decimal := ⟨0, 0⟩

/-- An integer as a decimal number, if it fits. -/
def ofInt? (n : Int) : Option Decimal := if InRange n then some ⟨n, 0⟩ else none

/-- The code point of a character. -/
def ofChar (c : Char) : Decimal := ⟨c.toNat, 0⟩

/-! ### Reading -/

/-- Why a text is no decimal number. -/
inductive ParseError where
  | notNumber (text : String)
  | noFraction (text : String)
  | tooPrecise (text : String)
  | outOfRange (text : String)
deriving Repr, DecidableEq

def ParseError.message : ParseError → String
  | .notNumber s => s!"`{s}` is not a decimal number"
  | .noFraction s => s!"`{s}` has no digits after the decimal point"
  | .tooPrecise s => s!"`{s}` has more than 28 fractional digits"
  | .outOfRange s => s!"`{s}` is out of range"

/-- A text as sign, characters before the first point and, if there is a point, characters after it. -/
def split (cs : List Char) : Bool × List Char × Option (List Char) :=
  let (negative, body) := match cs with
    | '-' :: rest => (true, rest)
    | _ => (false, cs)
  let after := match body.dropWhile (· ≠ '.') with
    | [] => none
    | _ :: rest => some rest
  (negative, body.takeWhile (· ≠ '.'), after)

/-- Digits are counted in a word of 32 bits. -/
def digitCount (digits : List Char) : Nat := digits.length % 0x100000000

/-- Reads an optional minus sign, at least one digit and, after an optional point, one to 28 digits. -/
def parse (s : String) : Except ParseError Decimal :=
  let (negative, whole, after) := split s.toList
  let fraction := after.getD []
  if whole.isEmpty || !(whole ++ fraction).all Char.isDigit then .error (.notNumber s)
  else if after = some [] then .error (.noFraction s)
  else if maxScale < digitCount fraction then .error (.tooPrecise s)
  else
    let magnitude : Int := Nat.ofDigitChars 10 (whole ++ fraction) 0
    let mantissa := if negative then -magnitude else magnitude
    if InRange mantissa then .ok ⟨mantissa, digitCount fraction⟩ else .error (.outOfRange s)

/-! ### Writing -/

/-- The digits of a number, with a zero before the point if there is nothing else. -/
def digits (d : Decimal) : List Char := (Nat.toDigits 10 d.mantissa.natAbs).leftpad (d.scale + 1) '0'

/-- The written form: all digits, with a point before the last `scale` of them. -/
def text (d : Decimal) : String :=
  let sign := if d.mantissa < 0 then ['-'] else []
  let whole := d.digits.take (d.digits.length - d.scale)
  let fraction := d.digits.drop (d.digits.length - d.scale)
  String.ofList (sign ++ whole ++ if d.scale = 0 then [] else '.' :: fraction)

/-! ### Other number types -/

/-- The integer that a number is, if it is one. -/
def toInt? (d : Decimal) : Option Int :=
  if d.mantissa.tmod (power 10 d.scale) = 0 then some (d.mantissa.tdiv (power 10 d.scale)) else none

/-- The nearest binary number. -/
def toBinary64 (d : Decimal) : Binary64 :=
  Binary64.ofDecimal (d.mantissa < 0) d.mantissa.natAbs (-(d.scale : Int))

end Decimal
end Backend
