/-! The operations of the stack machine. Four of them have a form of their own in a function's code; all others
    have at most one operand. -/

namespace Backend

/-- An operation code. -/
inductive Opcode where
  | scope
  | comment
  | declare
  | ldlr
  | nop
  | ldc
  | ldstr
  | ldarg
  | ldlv
  | stlv
  | ldfld
  | stfld
  | dup
  | pop
  | call
  | callv
  | ret
  | br
  | brif
  | brnif
  | add
  | sub
  | mul
  | div
  | rem
  | neg
  | and
  | or
  | xor
  | not
  | shl
  | shr
  | eq
  | ne
  | lt
  | le
  | gt
  | ge
  | conv
  | newobj
deriving Repr, DecidableEq, Ord

namespace Opcode

/-- All codes, in order. -/
def all : List Opcode :=
  [.scope, .comment, .declare, .ldlr, .nop, .ldc, .ldstr, .ldarg, .ldlv, .stlv, .ldfld, .stfld, .dup, .pop,
   .call, .callv, .ret, .br, .brif, .brnif, .add, .sub, .mul, .div, .rem, .neg, .and, .or, .xor, .not, .shl,
   .shr, .eq, .ne, .lt, .le, .gt, .ge, .conv, .newobj]

/-- The name of an operation in listings. -/
def mnemonic : Opcode → String
  | .scope => "scope"
  | .comment => "comment"
  | .declare => "local"
  | .ldlr => "ldlr"
  | .nop => "nop"
  | .ldc => "ldc"
  | .ldstr => "ldstr"
  | .ldarg => "ldarg"
  | .ldlv => "ldlv"
  | .stlv => "stlv"
  | .ldfld => "ldfld"
  | .stfld => "stfld"
  | .dup => "dup"
  | .pop => "pop"
  | .call => "call"
  | .callv => "callv"
  | .ret => "ret"
  | .br => "br"
  | .brif => "brif"
  | .brnif => "brnif"
  | .add => "add"
  | .sub => "sub"
  | .mul => "mul"
  | .div => "div"
  | .rem => "rem"
  | .neg => "neg"
  | .and => "and"
  | .or => "or"
  | .xor => "xor"
  | .not => "not"
  | .shl => "shl"
  | .shr => "shr"
  | .eq => "eq"
  | .ne => "ne"
  | .lt => "lt"
  | .le => "le"
  | .gt => "gt"
  | .ge => "ge"
  | .conv => "conv"
  | .newobj => "newobj"

def ofMnemonic? (s : String) : Option Opcode := all.find? (·.mnemonic = s)

/-- The mnemonic with a capital letter. -/
def title (o : Opcode) : String :=
  match o.mnemonic.toList with
  | [] => ""
  | c :: cs => String.ofList (c.toUpper :: cs)

/-- The operation has a form of its own. -/
def isStructural : Opcode → Bool
  | .scope | .comment | .declare | .ldlr => true
  | _ => false

theorem ofMnemonic?_mnemonic (o : Opcode) : ofMnemonic? o.mnemonic = some o := by
  cases o <;> rfl

theorem isLower_of_mem_mnemonic {o : Opcode} : ∀ c ∈ o.mnemonic.toList, c.isLower = true :=
  List.all_eq_true.mp (by cases o <;> rfl)

theorem mnemonic_head (o : Opcode) : ∃ c, o.mnemonic.toList.head? = some c ∧ c.isLower = true := by
  cases o <;> exact ⟨_, rfl, rfl⟩

end Opcode
end Backend
