/-! JSON values. Numbers are kept as they are written. A string written with half of a surrogate pair is a
    JSON string, but stands for no text. Members of an object keep their order, and a name may come again. -/

namespace Backend

/-- A JSON value. -/
inductive Json where
  | null
  | bool (b : Bool)
  | number (lexeme : List Char)
  | string (text : Option String)
  | array (items : List Json)
  | object (members : List (Option String × Json))
deriving Repr, Inhabited

namespace Json

def ofText (s : String) : Json := .string (some s)

def ofNat (n : Nat) : Json := .number (Nat.toDigits 10 n)

/-- The object with the given members. -/
def ofFields (fields : List (String × Json)) : Json := .object (fields.map fun (name, v) => (some name, v))

/-! ### Numbers -/

/-- A number by its parts: an integer without needless zeros, digits after a point, and an exponent. -/
structure Numeral where
  negative : Bool
  whole : List Char
  /-- The digits after the point, if there is one. -/
  fraction : Option (List Char)
  /-- The exponent, if there is one. -/
  exponent : Option Int
deriving Repr, DecidableEq

/-- The exponent in the text after its mark. -/
def exponent? (cs : List Char) : Option Int :=
  let (negative, digits) := match cs with
    | '-' :: rest => (true, rest)
    | '+' :: rest => (false, rest)
    | _ => (false, cs)
  if digits.isEmpty || !digits.all Char.isDigit then none
  else
    let n : Int := Nat.ofDigitChars 10 digits 0
    some (if negative then -n else n)

/-- The parts of a number after its fraction. -/
def exponentPart? (negative : Bool) (whole : List Char) (fraction : Option (List Char)) :
    List Char → Option Numeral
  | [] => some ⟨negative, whole, fraction, none⟩
  | c :: rest =>
    if c = 'e' ∨ c = 'E' then (exponent? rest).map fun e => ⟨negative, whole, fraction, some e⟩ else none

/-- The parts of a number written after its sign. -/
def unsigned? (negative : Bool) (cs : List Char) : Option Numeral :=
  let whole := cs.takeWhile Char.isDigit
  if whole.isEmpty || (whole.head? = some '0' && whole ≠ ['0']) then none
  else match cs.dropWhile Char.isDigit with
    | '.' :: rest =>
      let fraction := rest.takeWhile Char.isDigit
      if fraction.isEmpty then none
      else exponentPart? negative whole (some fraction) (rest.dropWhile Char.isDigit)
    | rest => exponentPart? negative whole none rest

/-- The parts of a number; `none` if the text is not the text of a number. -/
def numeral? : List Char → Option Numeral
  | '-' :: rest => unsigned? true rest
  | cs => unsigned? false cs

end Json
end Backend
