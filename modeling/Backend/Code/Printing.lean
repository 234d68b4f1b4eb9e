import Backend.Code.Dump
import Backend.Text.Bytes

/-! Dumping into a store of limited size. The dump is written piece by piece on a walk over the function, and the
    walk stops at the first piece that does not fit, or at the first line that cannot be made. What has been written
    by then stays. -/

namespace Backend

/-- A store that takes `capacity` bytes, and the bytes in it. -/
structure Store (capacity : Nat) where
  written : List UInt8
  fits : written.length ≤ capacity

namespace Store
variable {capacity : Nat}

def empty : Store capacity := ⟨[], Nat.zero_le _⟩

/-- The store after bytes were offered to it. It takes them one by one for as long as there is room. -/
def offered (store : Store capacity) (bytes : List UInt8) : Store capacity :=
  ⟨(store.written ++ bytes).take capacity, List.length_take_le _ _⟩

end Store

namespace Function

/-- Why a dump stops before its end. -/
inductive Halt where
  | full
  | fault (e : DumpFault)
deriving Repr, DecidableEq

/-- Printing into a store. -/
abbrev Printing (capacity : Nat) := ExceptT Halt (StateM (Store capacity))

variable {capacity : Nat}

/-- Writes a piece of text. One that does not fit is the last. -/
def put (text : String) : Printing capacity Unit := fun store =>
  let bytes := Text.bytes text.toList
  (if store.written.length + bytes.length ≤ capacity then .ok () else .error .full, store.offered bytes)

/-- Writes a line at a depth. Nothing of it is written if its padding is too wide. -/
def putLine (depth : Nat) (line : String) : Printing capacity Unit :=
  match Text.padding? (2 * depth) with
  | none => throw (.fault .tooDeep)
  | some spaces => do
    put spaces
    put line
    put "\n"

/-- Writes the heading of a function. -/
def putHeading (name : String) : Printing capacity Unit := do
  put "fun "
  put name
  put "\n"

/-- Writes the text of an operation line by line. The text is made before anything of it is written. -/
def printText (f : Function) (depth : Nat) (op : Op) : Printing capacity Unit :=
  match op.text? f with
  | .error e => throw (.fault (.badLocal e))
  | .ok text => (Text.lines (text.getD "")).forM (putLine depth)

mutual

/-- Prints an operation in a scope at a depth. -/
def printOp (f : Function) (depth : Nat) : Op → Printing capacity Unit
  | .scope body => do
    putLine (depth + 1) "\x7b"
    printOps f (depth + 1) body
    putLine (depth + 1) "\x7d"
  | .comment text => if text.isEmpty then put "\n" else printText f (depth + 1) (.comment text)
  | .declare index token => printText f (depth + 1) (.declare index token)
  | .ldlr index token => printText f (depth + 1) (.ldlr index token)
  | .plain opcode operand => printText f (depth + 1) (.plain opcode operand)

/-- Prints the operations of a scope at a depth. -/
def printOps (f : Function) (depth : Nat) : List Op → Printing capacity Unit
  | [] => pure ()
  | op :: ops => do
    printOp f depth op
    printOps f depth ops

end

/-- Prints a function. -/
def print (f : Function) : Printing capacity Unit := do
  put "\n"
  putHeading f.name
  f.locals.items.toList.zipIdx.forM fun (slot, i) =>
    putLine 1 (slot.name ++ " #" ++ i.repr ++ " " ++ slot.typeName)
  putLine 1 "\x7b"
  printOps f 1 f.body
  putLine 1 "\x7d"

/-- Prints functions in the order of their names. -/
def printAll (fs : List Function) : Printing capacity Unit := (sorted fs).forM print

/-- Prints into a store that takes `capacity` bytes: how it ended, and what is in the store. -/
def runPrinting (capacity : Nat) (p : Printing capacity Unit) : Except Halt Unit × List UInt8 :=
  let (outcome, store) := p .empty
  (outcome, store.written)

/-- Dumps a function into a store that takes `capacity` bytes. -/
def dumpInto (capacity : Nat) (f : Function) : Except Halt Unit × List UInt8 := runPrinting capacity f.print

/-- Dumps many functions into a store that takes `capacity` bytes. -/
def dumpAllInto (capacity : Nat) (fs : List Function) : Except Halt Unit × List UInt8 :=
  runPrinting capacity (printAll fs)

end Function
end Backend
