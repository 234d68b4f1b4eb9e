import Backend.Code.Function

/-! The dump of functions: a heading, the local slots, and the operations between braces, two spaces deeper in
    each scope. A dump is made line by line. A line whose operation names no local slot ends it, and so does one that
    would have to be padded too far. -/

namespace Backend

/-- Why a line cannot be made. -/
inductive DumpFault where
  /-- Its operation names a local slot that is not there. -/
  | badLocal (e : BadLocal)
  /-- It is in too many scopes. -/
  | tooDeep
deriving Repr, DecidableEq

/-- A line, or the fault that is met in its place. -/
abbrev DumpLine := Except DumpFault String

namespace Function

/-- The line of an entry behind a padding. The entry is looked at first. -/
def padded (width : Nat) : Except BadLocal String → DumpLine
  | .error e => .error (.badLocal e)
  | .ok line => match Text.padding? width with
    | some spaces => .ok (spaces ++ line)
    | none => .error .tooDeep

theorem padded_of_le {width : Nat} (h : width ≤ Text.maxPadding) (line : String) :
    padded width (.ok line) = .ok (Text.blanks width ++ line) := by
  rw [padded, Text.padding?_of_le h]

theorem padded_of_lt {width : Nat} (h : Text.maxPadding < width) (line : String) :
    padded width (.ok line) = .error .tooDeep := by
  rw [padded, Text.padding?_of_lt h]

/-- The line of an entry at a depth, two spaces for each level. -/
def indented (depth : Nat) (entry : Except BadLocal String) : DumpLine := padded (2 * depth) entry

theorem indented_of_le {depth : Nat} (h : 2 * depth ≤ Text.maxPadding) (line : String) :
    indented depth (.ok line) = .ok (Text.blanks (2 * depth) ++ line) := padded_of_le h line

theorem indented_of_lt {depth : Nat} (h : Text.maxPadding < 2 * depth) (line : String) :
    indented depth (.ok line) = .error .tooDeep := padded_of_lt h line

mutual

/-- The lines of one operation in a scope at a depth. -/
def opLines (f : Function) (depth : Nat) : Op → List DumpLine
  | .scope body =>
    indented (depth + 1) (.ok "\x7b") :: opsLines f (depth + 1) body ++ [indented (depth + 1) (.ok "\x7d")]
  | .comment text =>
    if text.isEmpty then [.ok ""]
    else ((Op.comment text).textLines f).map (indented (depth + 1))
  | .declare index token => ((Op.declare index token).textLines f).map (indented (depth + 1))
  | .ldlr index token => ((Op.ldlr index token).textLines f).map (indented (depth + 1))
  | .plain opcode operand => ((Op.plain opcode operand).textLines f).map (indented (depth + 1))

/-- The lines of the operations of a scope at a depth. -/
def opsLines (f : Function) (depth : Nat) : List Op → List DumpLine
  | [] => []
  | op :: ops => opLines f depth op ++ opsLines f depth ops

end

/-- The line of a local slot. -/
def slotLine (index : Nat) (slot : LocalSlot) : DumpLine :=
  indented 1 (.ok (slot.name ++ " #" ++ index.repr ++ " " ++ slot.typeName))

/-- All lines of a function. -/
def dumpLines (f : Function) : List DumpLine :=
  .ok "" :: .ok ("fun " ++ f.name) ::
    (f.locals.items.toList.zipIdx.map fun (slot, i) => slotLine i slot) ++
    indented 1 (.ok "\x7b") :: opsLines f 1 f.body ++ [indented 1 (.ok "\x7d")]

/-- The dump of some lines, each ended by a line feed. -/
def textOfLines (lines : List DumpLine) : Except DumpFault String :=
  (lines.mapM id).map fun ls => String.join (ls.map (· ++ "\n"))

/-- The dump of a function. -/
def dump (f : Function) : Except DumpFault String := textOfLines f.dumpLines

/-- Functions in the order of their names; those of one name keep their order. -/
def sorted (fs : List Function) : List Function := fs.mergeSort fun a b => a.name ≤ b.name

/-- The lines of many functions. -/
def dumpAllLines (fs : List Function) : List DumpLine := (sorted fs).flatMap dumpLines

/-- The dump of many functions. -/
def dumpAll (fs : List Function) : Except DumpFault String := textOfLines (dumpAllLines fs)

end Function
end Backend
