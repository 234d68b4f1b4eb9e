import Backend.Code.Printing
import Backend.Proofs.Code.Faults
import Backend.Proofs.Effect
import Mathlib.Data.List.Forall2

/-! Dumps that are cut off. Printing into a store of limited size writes the dump from its start, for as far as the
    store goes. If an operation cannot be printed, the dump goes up to the line in front of it, and that is as far as
    printing gets, however large the store is. -/

namespace Backend

namespace Store
variable {capacity : Nat} (store : Store capacity)

theorem offered_nil : store.offered [] = store := by
  obtain ⟨written, hfits⟩ := store
  simp [offered, List.take_of_length_le hfits]

theorem offered_offered (a b : List UInt8) : (store.offered a).offered b = store.offered (a ++ b) := by
  simp only [offered, mk.injEq, ← List.append_assoc]
  generalize store.written ++ a = l
  have hroom : capacity - min capacity l.length = capacity - l.length := by omega
  rw [List.take_append, List.take_take, Nat.min_self, List.length_take, hroom, ← List.take_append]

theorem length_offered (a : List UInt8) :
    (store.offered a).written.length = min capacity (store.written.length + a.length) := by
  rw [offered, List.length_take, List.length_append]

theorem offered_of_full {store : Store capacity} (h : capacity ≤ store.written.length) (a : List UInt8) :
    store.offered a = store := by
  obtain ⟨written, hfits⟩ := store
  simp [offered, List.take_append_of_le_length h, List.take_of_length_le hfits]

end Store

namespace Function
variable {capacity : Nat}

/-! ### Pieces of text -/

/-- Printing that writes a text and then ends as told; of a text that does not fit it writes what fits. -/
def Writes (p : Printing capacity Unit) (text : String) (ending : Except Halt Unit) : Prop :=
  ∀ store, p store =
    (if store.written.length + (Text.bytes text.toList).length ≤ capacity then ending else .error .full,
      store.offered (Text.bytes text.toList))

namespace Writes
variable {p q : Printing capacity Unit} {a b : String} {ending : Except Halt Unit} {e : Halt}

theorem of_nothing (h : ∀ store, p store = (ending, store)) : Writes p "" ending := by
  intro store
  have hfits : store.written.length + (Text.bytes "".toList).length ≤ capacity := store.fits
  rw [h, if_pos hfits]
  exact congrArg (Prod.mk ending) store.offered_nil.symm

theorem put (text : String) : Writes (put text : Printing capacity Unit) text (.ok ()) := fun _ => rfl

/-- The second text goes behind the first, and there is nothing of it if the first did not fit. -/
theorem bind (h : Writes p a (.ok ())) (h' : Writes q b ending) : Writes (p >>= fun _ => q) (a ++ b) ending := by
  intro store
  rw [bind_apply, h store, String.toList_append, Text.bytes_append, List.length_append, ← Store.offered_offered]
  have hlength := store.length_offered (Text.bytes a.toList)
  by_cases hfits : store.written.length + (Text.bytes a.toList).length ≤ capacity
  · simp only [if_pos hfits]
    rw [h', hlength, Nat.min_eq_right hfits, Nat.add_assoc]
  · have hfull : (store.offered (Text.bytes a.toList)).offered (Text.bytes b.toList) =
        store.offered (Text.bytes a.toList) := Store.offered_of_full (by omega) _
    simp only [if_neg hfits]
    rw [if_neg (by omega), hfull]

theorem halt (h : Writes p a (.error e)) : Writes (p >>= fun _ => q) a (.error e) := by
  intro store
  rw [bind_apply, h store]
  by_cases hfits : store.written.length + (Text.bytes a.toList).length ≤ capacity
  · simp only [if_pos hfits]
  · simp only [if_neg hfits]

end Writes

/-! ### Lines -/

/-- The text of the lines in front of the first fault. -/
def soundText : List DumpLine → String
  | .ok line :: rest => line ++ "\n" ++ soundText rest
  | _ => ""

/-- How printing the lines ends if all of them fit. -/
def ending (lines : List DumpLine) : Except Halt Unit :=
  match lines.findSome? fault? with
  | some e => .error (.fault e)
  | none => .ok ()

def Prints (p : Printing capacity Unit) (lines : List DumpLine) : Prop := Writes p (soundText lines) (ending lines)

section
variable {lines rest : List DumpLine} {text : String} {e : DumpFault}

theorem no_fault_of_text (h : textOfLines lines = .ok text) : lines.findSome? fault? = none := by
  cases hfault : lines.findSome? fault? with
  | none => rfl
  | some e => cases (textOfLines_of_fault hfault).symm.trans h

theorem soundText_append (h : textOfLines lines = .ok text) (rest : List DumpLine) :
    soundText (lines ++ rest) = text ++ soundText rest := by
  obtain ⟨values, rfl⟩ := eq_map_ok_of_no_fault (no_fault_of_text h)
  rw [textOfLines_map_ok] at h
  cases h
  induction values with
  | nil => simp
  | cons line values ih => simp [soundText, ih, String.append_assoc]

theorem soundText_eq (h : textOfLines lines = .ok text) : soundText lines = text := by
  have happend := soundText_append h []
  rwa [List.append_nil, show soundText [] = "" from rfl, String.append_empty] at happend

theorem ending_append (h : textOfLines lines = .ok text) : ending (lines ++ rest) = ending rest := by
  rw [ending, List.findSome?_append, no_fault_of_text h, Option.none_or]
  rfl

theorem ending_eq (h : textOfLines lines = .ok text) : ending lines = .ok () := by
  rw [ending, no_fault_of_text h]

theorem textOfLines_append (lines rest : List DumpLine) :
    textOfLines (lines ++ rest) = (textOfLines lines).bind fun text => (textOfLines rest).map (text ++ ·) := by
  unfold textOfLines
  rw [List.mapM_append]
  cases lines.mapM id with
  | error e => rfl
  | ok values => cases rest.mapM id <;> simp [bind, Except.bind, pure, Except.pure, Except.map]

theorem append_of_fault (h : lines.findSome? fault? = some e) (rest : List DumpLine) :
    soundText (lines ++ rest) = soundText lines ∧ ending (lines ++ rest) = ending lines := by
  refine ⟨?_, by rw [ending, ending, List.findSome?_append, h, Option.some_or]⟩
  induction lines with
  | nil => cases h
  | cons line lines ih =>
    cases line with
    | error e' => rfl
    | ok line => rw [List.cons_append, soundText, ih h, soundText]

end

namespace Prints
variable {p q : Printing capacity Unit} {lines lines' : List DumpLine}

theorem nil : Prints (pure () : Printing capacity Unit) [] := Writes.of_nothing fun _ => rfl

theorem append (h : Prints p lines) (h' : Prints q lines') : Prints (p >>= fun _ => q) (lines ++ lines') := by
  cases hfault : lines.findSome? fault? with
  | none =>
    obtain ⟨text, htext⟩ := exists_text_of_no_fault hfault
    rw [Prints, soundText_append htext, ending_append htext]
    rw [Prints, soundText_eq htext, ending_eq htext] at h
    exact h.bind h'
  | some e =>
    obtain ⟨hsound, hending⟩ := append_of_fault hfault lines'
    rw [Prints, hsound, hending, ending, hfault]
    rw [Prints, ending, hfault] at h
    exact h.halt

theorem forM {α : Type} {l : List α} {p : α → Printing capacity Unit} {lines : α → List DumpLine}
    (h : ∀ a ∈ l, Prints (p a) (lines a)) : Prints (l.forM p) (l.flatMap lines) := by
  induction l with
  | nil => exact nil
  | cons a l ih =>
    rw [List.flatMap_cons]
    exact (h a List.mem_cons_self).append (ih fun b hb => h b (List.mem_cons_of_mem a hb))

end Prints

/-! ### The walk -/

theorem prints_break : Prints (put "\n" : Printing capacity Unit) [.ok ""] := Writes.put "\n"

theorem prints_putLine (depth : Nat) (line : String) :
    Prints (putLine depth line : Printing capacity Unit) [indented depth (.ok line)] := by
  unfold putLine
  by_cases hfits : 2 * depth ≤ Text.maxPadding
  · have htext : soundText [.ok (Text.blanks (2 * depth) ++ line)] = Text.blanks (2 * depth) ++ (line ++ "\n") := by
      simp [soundText, String.append_assoc]
    rw [indented_of_le hfits, Text.padding?_of_le hfits, Prints, htext]
    exact (Writes.put _).bind ((Writes.put line).bind (Writes.put "\n"))
  · rw [indented_of_lt (Nat.not_le.mp hfits), Text.padding?_of_lt (Nat.not_le.mp hfits)]
    exact Writes.of_nothing fun _ => rfl

theorem prints_putHeading (name : String) :
    Prints (putHeading name : Printing capacity Unit) [.ok ("fun " ++ name)] := by
  have htext : soundText [.ok ("fun " ++ name)] = "fun " ++ (name ++ "\n") := by
    simp [soundText, String.append_assoc]
  rw [Prints, htext]
  exact (Writes.put "fun ").bind ((Writes.put name).bind (Writes.put "\n"))

theorem prints_printText (f : Function) (depth : Nat) {op : Op} (h : ∀ body, op ≠ .scope body) :
    Prints (printText f depth op : Printing capacity Unit) ((op.textLines f).map (indented depth)) := by
  unfold printText Op.textLines
  rcases htext : op.text? f with e | (_ | text)
  · exact Writes.of_nothing fun _ => rfl
  · exact absurd htext (text?_ne_none h f)
  · rw [List.map_map, List.map_eq_flatMap]
    exact Prints.forM fun line _ => prints_putLine depth line

mutual

theorem prints_printOp (f : Function) (depth : Nat) (op : Op) :
    Prints (printOp f depth op : Printing capacity Unit) (opLines f depth op) := by
  cases op with
  | scope body =>
    rw [printOp, opLines, List.cons_append]
    exact (prints_putLine (depth + 1) _).append
      ((prints_printOps f (depth + 1) body).append (prints_putLine (depth + 1) _))
  | comment text =>
    rw [printOp, opLines]
    split
    · exact prints_break
    · exact prints_printText f (depth + 1) nofun
  | declare index token | ldlr index token | plain opcode operand =>
    rw [printOp, opLines]
    exact prints_printText f (depth + 1) nofun

theorem prints_printOps (f : Function) (depth : Nat) (ops : List Op) :
    Prints (printOps f depth ops : Printing capacity Unit) (opsLines f depth ops) := by
  cases ops with
  | nil =>
    rw [printOps, opsLines]
    exact .nil
  | cons op ops =>
    rw [printOps, opsLines]
    exact (prints_printOp f depth op).append (prints_printOps f depth ops)

end

theorem prints_print (f : Function) : Prints (f.print : Printing capacity Unit) f.dumpLines := by
  have hslots : Prints (f.locals.items.toList.zipIdx.forM fun slot =>
      putLine 1 (slot.1.name ++ " #" ++ slot.2.repr ++ " " ++ slot.1.typeName) : Printing capacity Unit)
      (f.locals.items.toList.zipIdx.map fun slot => slotLine slot.2 slot.1) := by
    rw [List.map_eq_flatMap]
    exact Prints.forM fun slot _ => prints_putLine 1 _
  have hlines : f.dumpLines = [.ok ""] ++ ([.ok ("fun " ++ f.name)] ++
      ((f.locals.items.toList.zipIdx.map fun slot => slotLine slot.2 slot.1) ++
        ([indented 1 (.ok "\x7b")] ++ (opsLines f 1 f.body ++ [indented 1 (.ok "\x7d")])))) := by
    simp [dumpLines]
  rw [hlines]
  exact prints_break.append ((prints_putHeading f.name).append (hslots.append ((prints_putLine 1 _).append
    ((prints_printOps f 1 f.body).append (prints_putLine 1 _)))))

theorem prints_printAll (fs : List Function) : Prints (printAll fs : Printing capacity Unit) (dumpAllLines fs) :=
  Prints.forM fun f _ => f.prints_print

/-! ### In front of an operation -/

/-- The lines of the operations of a scope that stand in front of the operation at a position: those of the operations
    before it, and inside each scope around it the opening brace and the operations before. -/
def opsLinesBefore (f : Function) (depth : Nat) : List Op → List Nat → List DumpLine
  | _, [] => []
  | ops, i :: path => opsLines f depth (ops.take i) ++
    match ops[i]?, path with
    | some (.scope body), _ :: _ => indented (depth + 1) (.ok "\x7b") :: opsLinesBefore f (depth + 1) body path
    | _, _ => []

def linesBefore (f : Function) (path : List Nat) : List DumpLine := f.headLines ++ opsLinesBefore f 1 f.body path

/-- The dump up to the operation at a position. -/
def dumpBefore (f : Function) (path : List Nat) : Except DumpFault String := textOfLines (f.linesBefore path)

theorem opsLinesBefore_single (f : Function) (depth : Nat) (ops : List Op) (i : Nat) :
    opsLinesBefore f depth ops [i] = opsLines f depth (ops.take i) := by
  simp [opsLinesBefore]

theorem opsLinesBefore_scope (f : Function) (depth : Nat) {ops body : List Op} {i : Nat}
    (h : ops[i]? = some (.scope body)) (j : Nat) (path : List Nat) :
    opsLinesBefore f depth ops (i :: j :: path) = opsLines f depth (ops.take i) ++
      indented (depth + 1) (.ok "\x7b") :: opsLinesBefore f (depth + 1) body (j :: path) := by
  simp [opsLinesBefore, h]

theorem opsLines_append (f : Function) (depth : Nat) (a b : List Op) :
    opsLines f depth (a ++ b) = opsLines f depth a ++ opsLines f depth b := by
  induction a with
  | nil => rw [opsLines, List.nil_append, List.nil_append]
  | cons op a ih => rw [List.cons_append, opsLines, opsLines, ih, List.append_assoc]

theorem opsLines_split (f : Function) (depth : Nat) {ops : List Op} {i : Nat} {op : Op} (h : ops[i]? = some op) :
    opsLines f depth ops =
      opsLines f depth (ops.take i) ++ (opLines f depth op ++ opsLines f depth (ops.drop (i + 1))) := by
  obtain ⟨hi, rfl⟩ := List.getElem?_eq_some_iff.mp h
  have hops : ops = ops.take i ++ ops.get ⟨i, hi⟩ :: ops.drop (i + 1) := by simp
  have hlines := opsLines_append f depth (ops.take i) (ops.get ⟨i, hi⟩ :: ops.drop (i + 1))
  rwa [← hops, opsLines] at hlines

/-- The lines in front of an operation are followed by its own. -/
theorem opsLines_at (f : Function) {ops : List Op} {i : Nat} {path : List Nat} {op : Op}
    (h : Op.at? ops (i :: path) = some op) (depth : Nat) : ∃ after,
      opsLines f depth ops =
        opsLinesBefore f depth ops (i :: path) ++ (opLines f (depth + path.length) op ++ after) := by
  induction path generalizing ops i depth with
  | nil =>
    obtain ⟨top, htop, hop⟩ := Option.bind_eq_some_iff.mp h
    rw [Op.sub?_nil] at hop
    cases hop
    exact ⟨_, by rw [opsLinesBefore_single, opsLines_split f depth htop]; rfl⟩
  | cons j path ih =>
    obtain ⟨top, htop, hop⟩ := Option.bind_eq_some_iff.mp h
    cases top with
    | scope body =>
      obtain ⟨after, hafter⟩ := ih hop (depth + 1)
      refine ⟨after ++ indented (depth + 1) (.ok "\x7d") :: opsLines f depth (ops.drop (i + 1)), ?_⟩
      rw [opsLines_split f depth htop, opLines, hafter, opsLinesBefore_scope f depth htop, List.length_cons,
        Nat.add_comm path.length, ← Nat.add_assoc]
      simp
    | comment text | declare index token | ldlr index token | plain opcode operand => cases hop

theorem no_fault_opsLines {f : Function} {ops : List Op} {level : Nat}
    (h : ∀ path op, Op.at? ops path = some op → f.faultAt? (level + path.length, op) = none) :
    (opsLines f (level + 1) ops).findSome? fault? = none := by
  rw [fault_opsLines, Op.walkAllLevels_eq_none_iff]
  exact h

theorem no_fault_take {f : Function} {ops : List Op} {level i : Nat} {path : List Nat}
    (h : ∀ q < i :: path, ∀ op, Op.at? ops q = some op → f.faultAt? (level + q.length, op) = none) :
    (opsLines f (level + 1) (ops.take i)).findSome? fault? = none := by
  refine no_fault_opsLines fun q op hop => ?_
  cases q with
  | nil => cases hop
  | cons j q =>
    obtain ⟨top, htop, hop⟩ := Option.bind_eq_some_iff.mp hop
    have hj : j < i := by
      obtain ⟨hlt, -⟩ := List.getElem?_eq_some_iff.mp htop
      exact Nat.lt_of_lt_of_le hlt (List.length_take_le i ops)
    rw [List.getElem?_take_of_lt hj] at htop
    exact h (j :: q) (List.cons_lt_cons_iff.mpr (Or.inl hj)) op (Option.bind_eq_some_iff.mpr ⟨top, htop, hop⟩)

/-- If nothing before an operation is at fault, there is no fault in the lines in front of it. -/
theorem no_fault_opsLinesBefore {f : Function} {ops : List Op} {level i : Nat} {path : List Nat} {op : Op}
    (hop : Op.at? ops (i :: path) = some op)
    (h : ∀ q < i :: path, ∀ op, Op.at? ops q = some op → f.faultAt? (level + q.length, op) = none) :
    (opsLinesBefore f (level + 1) ops (i :: path)).findSome? fault? = none := by
  have htake := no_fault_take h
  induction path generalizing ops i level with
  | nil => rwa [opsLinesBefore_single]
  | cons j path ih =>
    obtain ⟨top, htop, hop⟩ := Option.bind_eq_some_iff.mp hop
    cases top with
    | scope body =>
      have hscope : f.faultAt? (level + 1, .scope body) = none :=
        h [i] (List.cons_lt_cons_iff.mpr (Or.inr ⟨rfl, List.nil_lt_cons j path⟩)) _ (by simp [Op.at?, htop, Op.sub?])
      have hopens : fault? (indented (level + 1 + 1) (.ok "\x7b")) = none := by
        rw [indented_of_le (le_maxPadding_of_no_fault hscope rfl)]
        rfl
      have hinside : ∀ q < j :: path, ∀ op, Op.at? body q = some op →
          f.faultAt? (level + 1 + q.length, op) = none := by
        intro q hq op hop
        cases q with
        | nil => cases hop
        | cons k q =>
          have hlevel : level + (i :: k :: q).length = level + 1 + (k :: q).length := by
            simp only [List.length_cons]
            omega
          rw [← hlevel]
          exact h (i :: k :: q) (List.cons_lt_cons_iff.mpr (Or.inr ⟨rfl, hq⟩)) op
            (Option.bind_eq_some_iff.mpr ⟨_, htop, hop⟩)
      rw [opsLinesBefore_scope f (level + 1) htop, List.findSome?_append, htake, Option.none_or, List.findSome?_cons,
        hopens]
      exact ih hop hinside (no_fault_take hinside)
    | comment text | declare index token | ldlr index token | plain opcode operand => cases hop

/-! ### The first operation at fault -/

/-- The dump has a text up to the first operation at fault, and the fault comes next. -/
theorem dumpLines_of_first {f : Function} {path : List Nat} {op : Op} {e : DumpFault} (h : FirstFault f path op e) :
    (∃ text, f.dumpBefore path = .ok text) ∧
      ∃ after, f.dumpLines = f.linesBefore path ++ .error e :: after := by
  obtain ⟨hop, hfault, hfirst⟩ := h
  cases path with
  | nil => cases hop
  | cons i path =>
    have hsound : ∀ q < i :: path, ∀ op, Op.at? f.body q = some op → f.faultAt? (0 + q.length, op) = none := by
      intro q hq op' hop'
      rw [Nat.zero_add]
      exact not_faultAt_iff.mp fun e' => hfirst q hq op' e' hop'
    constructor
    · refine exists_text_of_no_fault ?_
      rw [linesBefore, List.findSome?_append, f.no_fault_headLines, Option.none_or]
      exact no_fault_opsLinesBefore hop hsound
    · obtain ⟨after, hafter⟩ := opsLines_at f hop 1
      obtain ⟨rest, hrest⟩ := opLines_of_faultAt hfault
      rw [List.length_cons, Nat.add_comm] at hrest
      refine ⟨rest ++ (after ++ [indented 1 (.ok "\x7d")]), ?_⟩
      rw [dumpLines_eq, linesBefore, hafter, hrest]
      simp

/-! ### What is in the store -/

/-- A text cut off at the size of a store, and how printing it ended. -/
def cutOff (capacity : Nat) (text : String) (ending : Except Halt Unit) : Except Halt Unit × List UInt8 :=
  let bytes := Text.bytes text.toList
  (if bytes.length ≤ capacity then ending else .error .full, bytes.take capacity)

theorem runPrinting_eq {p : Printing capacity Unit} {lines : List DumpLine} (h : Prints p lines) :
    runPrinting capacity p = cutOff capacity (soundText lines) (ending lines) := by
  rw [runPrinting, h .empty]
  simp [cutOff, Store.empty, Store.offered]

theorem runPrinting_of_text {p : Printing capacity Unit} {lines : List DumpLine} {text : String} (h : Prints p lines)
    (htext : textOfLines lines = .ok text) : runPrinting capacity p = cutOff capacity text (.ok ()) := by
  rw [runPrinting_eq h, soundText_eq htext, ending_eq htext]

theorem runPrinting_of_fault {p : Printing capacity Unit} {before after : List DumpLine} {text : String} {e : DumpFault}
    (h : Prints p (before ++ .error e :: after)) (htext : textOfLines before = .ok text) :
    runPrinting capacity p = cutOff capacity text (.error (.fault e)) := by
  rw [runPrinting_eq h, soundText_append htext, ending_append htext, soundText, String.append_empty]
  · rfl
  · nofun

theorem exists_dumps {fs : List Function} (h : ∀ f ∈ fs, f.LocalsInRange ∧ f.Shallow) :
    ∃ texts, List.Forall₂ (fun f text => f.dump = .ok text) fs texts ∧
      textOfLines (fs.flatMap dumpLines) = .ok (String.join texts) := by
  induction fs with
  | nil => exact ⟨[], .nil, rfl⟩
  | cons f fs ih =>
    obtain ⟨hf, hfs⟩ := List.forall_mem_cons.mp h
    obtain ⟨text, htext⟩ := exists_dump hf.1 hf.2
    obtain ⟨texts, hdumps, hjoin⟩ := ih hfs
    refine ⟨text :: texts, .cons htext hdumps, ?_⟩
    rw [List.flatMap_cons, String.join_cons, textOfLines_append, ← dump, htext, hjoin]
    rfl

/-- The first of some functions without a property stands behind others that have it. -/
theorem split_of_not (P : Function → Prop) {fs : List Function} (h : ∃ f ∈ fs, ¬P f) : ∃ before f after,
    fs = before ++ f :: after ∧ (∀ g ∈ before, P g) ∧ ¬P f := by
  obtain ⟨f, hf, hnot⟩ := h
  induction fs with
  | nil => cases hf
  | cons g fs ih =>
    by_cases hg : P g
    · rcases List.mem_cons.mp hf with rfl | hf
      · exact absurd hg hnot
      · obtain ⟨before, f', after, hsplit, hbefore, hf'⟩ := ih hf
        exact ⟨g :: before, f', after, congrArg (g :: ·) hsplit, List.forall_mem_cons.mpr ⟨hg, hbefore⟩, hf'⟩
    · exact ⟨[], g, fs, rfl, nofun, hg⟩

/-! ### The order of functions -/

/-- The second list has the functions of the first in the order of their names, and those of one name as they were. -/
structure ByName (fs fs' : List Function) : Prop where
  perm : fs'.Perm fs
  ascending : fs'.Pairwise fun g h => g.name ≤ h.name
  stable : ∀ name, fs'.filter (·.name = name) = fs.filter (·.name = name)

theorem byName_sorted (fs : List Function) : ByName fs (sorted fs) := by
  have htrans : ∀ a b c : Function, decide (a.name ≤ b.name) = true → decide (b.name ≤ c.name) = true →
      decide (a.name ≤ c.name) = true := fun a b c hab hbc =>
    decide_eq_true (String.le_trans (of_decide_eq_true hab) (of_decide_eq_true hbc))
  have htotal : ∀ a b : Function, (decide (a.name ≤ b.name) || decide (b.name ≤ a.name)) = true := by
    intro a b
    simpa using String.le_total a.name b.name
  have hperm : (sorted fs).Perm fs := List.mergeSort_perm _ _
  refine ⟨hperm, (List.pairwise_mergeSort htrans htotal fs).imp of_decide_eq_true, fun name => ?_⟩
  -- Functions of one name ascend as they stand, so sorting keeps their order.
  have hsame : (fs.filter (·.name = name)).Pairwise fun a b => decide (a.name ≤ b.name) = true := by
    refine List.pairwise_of_forall_mem_list fun a ha b hb => decide_eq_true ?_
    have ha : a.name = name := by simpa using (List.mem_filter.mp ha).2
    have hb : b.name = name := by simpa using (List.mem_filter.mp hb).2
    rewrite [ha, hb]
    exact String.le_refl name
  have hkept : (fs.filter (·.name = name)).Sublist ((sorted fs).filter (·.name = name)) := by
    have hsub := (List.sublist_mergeSort htrans htotal hsame List.filter_sublist).filter (·.name = name)
    simpa only [List.filter_filter, Bool.and_self, sorted] using hsub
  exact (hkept.eq_of_length (hperm.filter _).length_eq.symm).symm

/-! ### Cut off -/

/-- Dumping into a store of limited size writes the dump from its start for as far as the store goes, and ends well just
    if all of it fits. If a function cannot be dumped, this goes for the text up to the first operation at fault; it
    fails there if it fits up to there, and otherwise because the store is full. The same holds for the dumps of many
    functions behind each other, in the order of their names. An operation that is the first to name a slot out of range
    is the first at fault just if nothing in front of it is too deep. -/
theorem limited_dump_is_cut_off_at_fault (capacity : Nat) (f : Function) (fs : List Function) :
    (f.LocalsInRange → f.Shallow →
      ∃ text, f.dump = .ok text ∧ dumpInto capacity f = cutOff capacity text (.ok ())) ∧
    (¬(f.LocalsInRange ∧ f.Shallow) → ∃ path op e, FirstFault f path op e) ∧
    (∀ path op e, FirstFault f path op e → ∃ text, f.dumpBefore path = .ok text ∧
      dumpInto capacity f = cutOff capacity text (.error (.fault e))) ∧
    ((∀ g ∈ fs, g.LocalsInRange ∧ g.Shallow) →
      ∃ texts, List.Forall₂ (fun g text => g.dump = .ok text) (sorted fs) texts ∧
        dumpAllInto capacity fs = cutOff capacity (String.join texts) (.ok ())) ∧
    ((∃ g ∈ fs, ¬(g.LocalsInRange ∧ g.Shallow)) → ∃ before g after texts, sorted fs = before ++ g :: after ∧
      List.Forall₂ (fun g text => g.dump = .ok text) before texts ∧
      ∃ path op e text, FirstFault g path op e ∧ g.dumpBefore path = .ok text ∧
        dumpAllInto capacity fs = cutOff capacity (String.join texts ++ text) (.error (.fault e))) ∧
    (∀ g path op index, FirstFault g path op (.badLocal (g.badLocal index)) ↔
      FirstOutOfRange g path op index ∧ g.ShallowBefore path) ∧
    ByName fs (sorted fs) := by
  have hmem : ∀ g, g ∈ sorted fs ↔ g ∈ fs := fun g => (byName_sorted fs).perm.mem_iff
  refine ⟨fun hrange hshallow => ?_, fun h => ?_, fun path op e hfirst => ?_, fun h => ?_, fun h => ?_,
    fun g path op index => firstFault_badLocal_iff, byName_sorted fs⟩
  · obtain ⟨text, htext⟩ := exists_dump hrange hshallow
    exact ⟨text, htext, runPrinting_of_text f.prints_print htext⟩
  · obtain ⟨path, op, e, hfirst, -⟩ := exists_firstFault h
    exact ⟨path, op, e, hfirst⟩
  · obtain ⟨⟨text, htext⟩, after, hlines⟩ := dumpLines_of_first hfirst
    exact ⟨text, htext, runPrinting_of_fault (hlines ▸ f.prints_print) htext⟩
  · obtain ⟨texts, hdumps, hjoin⟩ := exists_dumps fun g hg => h g ((hmem g).mp hg)
    exact ⟨texts, hdumps, runPrinting_of_text (prints_printAll fs) hjoin⟩
  · obtain ⟨g, hg, hfaulty⟩ := h
    obtain ⟨before, f', after, hsplit, hbefore, hf'⟩ :=
      split_of_not (fun g => g.LocalsInRange ∧ g.Shallow) ⟨g, (hmem g).mpr hg, hfaulty⟩
    obtain ⟨texts, hdumps, hjoin⟩ := exists_dumps hbefore
    obtain ⟨path, op, e, hfirst, -⟩ := exists_firstFault hf'
    obtain ⟨⟨text, htext⟩, rest, hlines⟩ := dumpLines_of_first hfirst
    refine ⟨before, f', after, texts, hsplit, hdumps, path, op, e, text, hfirst, htext, ?_⟩
    have hall : dumpAllLines fs = (before.flatMap dumpLines ++ f'.linesBefore path) ++
        .error e :: (rest ++ after.flatMap dumpLines) := by
      rw [dumpAllLines, hsplit, List.flatMap_append, List.flatMap_cons, hlines]
      simp
    have hbefore : textOfLines (before.flatMap dumpLines ++ f'.linesBefore path) = .ok (String.join texts ++ text) := by
      rw [textOfLines_append, hjoin, ← dumpBefore, htext]
      rfl
    exact runPrinting_of_fault (hall ▸ prints_printAll fs) hbefore

/-- A function whose last operation, in a scope of its own, names the second of one slot. -/
def misnamed : Function :=
  ⟨"Über", .ofList [⟨"é", "i32"⟩], [.comment "", .scope [.ldlr 0 "é", .comment "b\nc"], .scope [.declare 1 "x"]]⟩

theorem misnamed_limited_dump : ¬misnamed.LocalsInRange ∧ misnamed.Shallow ∧
    (∃ path op index text, FirstOutOfRange misnamed path op index ∧ misnamed.dumpBefore path = .ok text ∧
      dumpInto 60 misnamed = cutOff 60 text (.error (.fault (.badLocal (misnamed.badLocal index))))) ∧
    ∃ before g after texts, sorted [misnamed, .new "Add"] = before ++ g :: after ∧
      List.Forall₂ (fun g text => g.dump = .ok text) before texts ∧
      ∃ path op e text, FirstFault g path op e ∧ g.dumpBefore path = .ok text ∧
        dumpAllInto 60 [misnamed, .new "Add"] = cutOff 60 (String.join texts ++ text) (.error (.fault e)) := by
  have hrange : ¬misnamed.LocalsInRange := fun hrange => nomatch inRange_iff.mp hrange
  have hshallow : misnamed.Shallow := by decide
  have hfaulty : ¬(misnamed.LocalsInRange ∧ misnamed.Shallow) := fun h => hrange h.1
  obtain ⟨-, -, hfirst, -, hmany, hslot, -⟩ := limited_dump_is_cut_off_at_fault 60 misnamed [misnamed, .new "Add"]
  obtain ⟨path, op, index, hout, -⟩ := first_of_undeclared (show misnamed.firstUndeclared? = some _ from rfl)
  obtain ⟨text, htext, hcut⟩ :=
    hfirst path op _ ((hslot misnamed path op index).mpr ⟨hout, fun q _ op' hop' => hshallow q op' hop'⟩)
  exact ⟨hrange, hshallow, ⟨path, op, index, text, hout, htext, hcut⟩,
    hmany ⟨misnamed, List.mem_cons_self, hfaulty⟩⟩

-- The fault is met as soon as there is room for the line before it, and with a byte less the store is full first.
example : (misnamed.dumpInto 88).1 = .error .full ∧
    (misnamed.dumpInto 89).1 = .error (.fault (.badLocal ⟨"Über", 1, 1⟩)) := by
  cbv

/-- Printing 32767 scopes in each other ends well in no store. -/
theorem printed_but_too_deep :
    ¬∀ f : Function, f.LocalsInRange → ∃ text, ∀ capacity, dumpInto capacity f = cutOff capacity text (.ok ()) := by
  intro h
  obtain ⟨text, htext⟩ := h (deep 0x7FFF) (deep_inRange _)
  obtain ⟨path, op, e, hfirst, -⟩ := exists_firstFault fun hboth => deep_not_shallow hboth.2
  obtain ⟨⟨before, hbefore⟩, after, hlines⟩ := dumpLines_of_first hfirst
  -- In a store that takes both texts whole, only the endings differ.
  have hends := htext (max (Text.bytes text.toList).length (Text.bytes before.toList).length)
  rw [dumpInto, runPrinting_of_fault (hlines ▸ prints_print (deep 0x7FFF)) hbefore] at hends
  have hending := congrArg Prod.fst hends
  simp only [cutOff, Nat.le_max_left, Nat.le_max_right, if_true] at hending
  cases hending

end Function
end Backend
