import Backend.Text.Shown

/-! Operands of operations. -/

namespace Backend

/-- What an operation is applied to, if anything. Numbers are compared by value. -/
inductive Operand where
  | none
  | int (n : Int)
  | float (x : Binary64)
  | str (s : String)
  | symbol (name : String)
deriving Repr, BEq

namespace Operand

def isNone : Operand → Bool
  | .none => true
  | _ => false

/-- The operand in a listing. Strings are quoted, names are not. -/
def text : Operand → String
  | .none => ""
  | .int n => n.repr
  | .float x => x.shown
  | .str s => Text.quoted s
  | .symbol name => name

end Operand
end Backend
