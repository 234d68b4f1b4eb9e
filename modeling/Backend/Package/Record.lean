import Backend.Code.Function
import Backend.Decimal

/-! The records of a package: constants, types, function signatures and code. -/

namespace Backend

/-- A named value of a type. A constant is held exactly and as a binary number, as neither holds every
    constant. -/
structure Constant where
  name : String
  typeName : String
  value : Decimal
  float : Binary64
deriving Repr, BEq

namespace Constant

/-- A constant whose binary number is the nearest to the exact one. -/
def exact (name typeName : String) (value : Decimal) : Constant := ⟨name, typeName, value, value.toBinary64⟩

/-- An integer constant, if the integer fits. -/
def ofInt? (name typeName : String) (n : Int) : Option Constant := (Decimal.ofInt? n).map (exact name typeName)

def ofChar (name typeName : String) (c : Char) : Constant := exact name typeName (.ofChar c)

/-- The exact value of a binary number: the integer that it is, or zero if it is none or one of 2¹²⁷ or
    more on either side. -/
def exactValue (x : Binary64) : Decimal :=
  match x.toInt? with
  | some n => if n.natAbs < 0x80000000000000000000000000000000 then ⟨n, 0⟩ else .zero
  | none => .zero

def ofFloat (name typeName : String) (x : Binary64) : Constant := ⟨name, typeName, exactValue x, x⟩

end Constant

/-- A field of a type. -/
structure TypeField where
  name : String
  typeName : String
deriving Repr, DecidableEq

/-- What a function takes and gives. -/
structure Signature where
  name : String
  typeArgs : List String
  params : List String
  returns : List String
deriving Repr, DecidableEq

/-- The shape of a type. -/
structure TypeRecord where
  name : String
  alignment : UInt32
  size : UInt32
  typeArgs : List String
  fields : List TypeField
  staticFields : List TypeField
  constFields : List Constant
  methods : List Signature
deriving Repr, BEq

/-- The body of a function: its local slots and the lines of its operations. -/
structure CodeRecord where
  locals : List LocalSlot
  ops : List String
deriving Repr, DecidableEq

/-- A text to be translated and the context it stands in. -/
structure Translatable where
  context : String
  text : String
deriving Repr, DecidableEq

namespace Translatable

/-- Ordered by context, then by text. -/
def le (a b : Translatable) : Bool := a.context < b.context || (a.context = b.context && a.text ≤ b.text)

end Translatable
end Backend
