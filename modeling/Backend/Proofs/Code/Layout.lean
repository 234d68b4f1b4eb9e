import Backend.Code.Dump
import Backend.Code.Listing

/-! The layout of a dump. The dump of the operations and their listing are two walks over one tree; line by line
    they differ in the indentation only, which is told here from the tree. -/

namespace Backend
namespace Function

/-- The number of lines that an operation has in a listing, apart from what is inside it. -/
def lineCount (f : Function) (op : Op) : Nat :=
  match op.text? f with
  | .ok (some text) => text.toList.count '\n' + 1
  | .ok none => 0
  | .error _ => 1

mutual

/-- The indentations of the lines of an operation in a scope at a depth. The braces of a scope inside stand at
    the depth of that scope, a blank line at none, and all other lines one level deeper than the scope they are in. -/
def opIndents (f : Function) (depth : Nat) : Op → List Nat
  | .scope body => 2 * (depth + 1) :: opsIndents f (depth + 1) body ++ [2 * (depth + 1)]
  | .comment text => if text = "" then [0] else List.replicate (f.lineCount (.comment text)) (2 * (depth + 1))
  | op => List.replicate (f.lineCount op) (2 * (depth + 1))

/-- The indentations of the lines of a scope's operations. -/
def opsIndents (f : Function) (depth : Nat) : List Op → List Nat
  | [] => []
  | op :: ops => opIndents f depth op ++ opsIndents f depth ops

end

theorem length_textLines (f : Function) (op : Op) : (op.textLines f).length = f.lineCount op := by
  unfold Op.textLines lineCount
  rcases op.text? f with e | (_ | text)
  · rfl
  · rfl
  · exact (List.length_map _).trans (Text.length_lines text)

/-- The lines are the entries, each padded as its indentation says. -/
def Indented (indents : List Nat) (entries : List (Except BadLocal String)) (lines : List DumpLine) : Prop :=
  indents.length = entries.length ∧ lines = List.zipWith padded indents entries

namespace Indented
variable {ks ks' : List Nat} {es es' : List (Except BadLocal String)} {ls ls' : List DumpLine}

theorem append (h : Indented ks es ls) (h' : Indented ks' es' ls') : Indented (ks ++ ks') (es ++ es') (ls ++ ls') :=
  ⟨by rw [List.length_append, List.length_append, h.1, h'.1], by rw [List.zipWith_append h.1, ← h.2, ← h'.2]⟩

theorem single (k : Nat) (e : Except BadLocal String) : Indented [k] [e] [padded k e] := ⟨rfl, rfl⟩

theorem replicate {n : Nat} (k : Nat) (h : es.length = n) : Indented (List.replicate n k) es (es.map (padded k)) := by
  subst h
  refine ⟨List.length_replicate, ?_⟩
  induction es with
  | nil => rfl
  | cons e es ih => rw [List.map_cons, ih, List.length_cons, List.replicate_succ, List.zipWith_cons_cons]

end Indented

mutual

theorem opLines_indented (f : Function) (depth : Nat) (op : Op) :
    Indented (opIndents f depth op) (opEntries f op) (opLines f depth op) := by
  cases op with
  | scope body =>
    rw [opIndents, opEntries, opLines]
    have opening := Indented.single (2 * (depth + 1)) (.ok "\x7b")
    have closing := Indented.single (2 * (depth + 1)) (.ok "\x7d")
    exact (opening.append (opsLines_indented f (depth + 1) body)).append closing
  | comment text =>
    rw [opIndents, opEntries, opLines]
    by_cases h : text = ""
    · subst h
      exact Indented.single 0 (.ok "")
    · rw [if_neg h, if_neg (by simpa using h)]
      exact Indented.replicate _ (length_textLines f _)
  | declare index token | ldlr index token | plain opcode operand =>
    rw [opIndents, opEntries, opLines]
    · exact Indented.replicate _ (length_textLines f _)
    all_goals simp

theorem opsLines_indented (f : Function) (depth : Nat) (ops : List Op) :
    Indented (opsIndents f depth ops) (opsEntries f ops) (opsLines f depth ops) := by
  cases ops with
  | nil => exact ⟨rfl, rfl⟩
  | cons op ops =>
    rw [opsIndents, opsEntries, opsLines]
    exact (opLines_indented f depth op).append (opsLines_indented f depth ops)

end

end Function
end Backend
