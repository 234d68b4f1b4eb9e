import Backend.Code.Opcode
import Backend.Code.Operand
import Backend.Indexed
import Backend.Text.Split

/-! Compiled functions: local slots and a tree of operations. Operations name slots by number, and nothing
    keeps a number from being out of range but the check at the end of this file. -/

namespace Backend

/-- A local slot of a function. -/
structure LocalSlot where
  name : String
  typeName : String
deriving Repr, DecidableEq

/-- An operation in a scope. -/
inductive Op where
  /-- A nested scope. -/
  | scope (body : List Op)
  /-- A remark. An empty one is a blank line. -/
  | comment (text : String)
  /-- Makes a local slot live. -/
  | declare (index : Nat) (token : String)
  /-- Loads a reference to a local slot. -/
  | ldlr (index : Nat) (token : String)
  /-- Any other operation. -/
  | plain (opcode : Opcode) (operand : Operand)
deriving Repr

/-- A code that has a form of its own was used for a plain operation. -/
structure StructuralOpcode where
  opcode : Opcode
deriving Repr, DecidableEq

def StructuralOpcode.message (e : StructuralOpcode) : String :=
  "`" ++ e.opcode.mnemonic ++ "` has its own operation variant"

namespace Op

def opcode : Op → Opcode
  | .scope _ => .scope
  | .comment _ => .comment
  | .declare .. => .declare
  | .ldlr .. => .ldlr
  | .plain opcode _ => opcode

/-- The local slot that an operation names. -/
def localIndex? : Op → Option Nat
  | .declare index _ => some index
  | .ldlr index _ => some index
  | _ => none

/-- A plain operation. -/
def plain? (opcode : Opcode) (operand : Operand) : Except StructuralOpcode Op :=
  if opcode.isStructural then .error ⟨opcode⟩ else .ok (.plain opcode operand)

mutual

/-- An operation and all inside it, in order. -/
def walk : Op → List Op
  | .scope body => .scope body :: walkAll body
  | op => [op]

/-- All operations of a scope and of the scopes in it, each scope before its contents. -/
def walkAll : List Op → List Op
  | [] => []
  | op :: ops => walk op ++ walkAll ops

end

end Op

/-- A compiled function. -/
structure Function where
  name : String
  locals : Indexed LocalSlot
  body : List Op
deriving Repr

/-- A local slot that does not exist was asked for. -/
structure BadLocal where
  function : String
  index : Nat
  count : Nat
deriving Repr, DecidableEq

def BadLocal.message (e : BadLocal) : String :=
  "local #" ++ e.index.repr ++ " is out of range in `" ++ e.function ++ "` (" ++ e.count.repr ++ " locals)"

/-- An operation names a local slot that is not declared. -/
structure UndeclaredLocal where
  opcode : Opcode
  slot : BadLocal
deriving Repr, DecidableEq

def UndeclaredLocal.message (e : UndeclaredLocal) : String :=
  "`" ++ e.opcode.mnemonic ++ "` in `" ++ e.slot.function ++ "` refers to local #" ++ e.slot.index.repr ++
    ", but only " ++ e.slot.count.repr ++ " locals are declared"

namespace Function

/-- A function without slots and operations. -/
def new (name : String) : Function := ⟨name, .empty, []⟩

/-- Declares a local slot and gives its number. -/
def addLocal (f : Function) (slot : LocalSlot) : Except PositionFault (Nat × Function) := do
  let (i, locals) ← f.locals.push slot
  return (i, { f with locals := locals })

def badLocal (f : Function) (index : Nat) : BadLocal := ⟨f.name, index, f.locals.size⟩

/-- The local slot of a number. -/
def slot (f : Function) (index : Nat) : Except BadLocal LocalSlot :=
  match f.locals.get? index with
  | some slot => .ok slot
  | none => .error (f.badLocal index)

/-- What is wrong with the local slot that an operation names, if anything. -/
def undeclared? (f : Function) (op : Op) : Option UndeclaredLocal :=
  match op.localIndex? with
  | some index => if f.locals.contains index then none else some ⟨op.opcode, f.badLocal index⟩
  | none => none

/-- Checks that every operation names declared slots only; the first that does not is the answer. -/
def checkLocals (f : Function) : Except UndeclaredLocal Unit :=
  match (Op.walkAll f.body).findSome? f.undeclared? with
  | some e => .error e
  | none => .ok ()

end Function

/-! ### Text of operations -/

namespace Op

/-- A line of a remark. -/
def commentLine (line : List Char) : List Char :=
  if line.isEmpty then ['/', '/'] else '/' :: '/' :: ' ' :: line

/-- A remark line by line; an empty one has an empty text. -/
def commentText (text : String) : String :=
  if text.isEmpty then ""
  else String.ofList (Text.joinLines ((Text.splitLines text.toList).map commentLine))

/-- The text of an operation that names a local slot. -/
def localText (f : Function) (opcode : Opcode) (index : Nat) (token : String) : Except BadLocal String :=
  (f.slot index).map fun slot =>
    opcode.mnemonic ++ " #" ++ index.repr ++ " " ++ token ++ " " ++ slot.typeName

/-- The text of an operation. A scope has none of its own. -/
def text? (f : Function) : Op → Except BadLocal (Option String)
  | .scope _ => .ok none
  | .comment text => .ok (some (commentText text))
  | .declare index token => (localText f .declare index token).map some
  | .ldlr index token => (localText f .ldlr index token).map some
  | .plain opcode operand =>
    .ok (some (if operand.isNone then opcode.mnemonic else opcode.mnemonic ++ " " ++ operand.text))

/-- The lines of an operation's text, or what keeps it from having one. -/
def textLines (f : Function) (op : Op) : List (Except BadLocal String) :=
  match op.text? f with
  | .error e => [.error e]
  | .ok none => []
  | .ok (some text) => (Text.lines text).map .ok

end Op
end Backend
