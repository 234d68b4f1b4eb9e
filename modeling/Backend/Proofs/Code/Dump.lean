import Backend.Proofs.Code.Faults
import Backend.Proofs.Code.Layout

/-! The dump of a function and its code record agree line for line, as long as there is a dump. -/

namespace Backend
namespace Function

/-- A dump made from the entries of a listing: the heading, a line for each local slot, and between braces each
    entry in a line of its own behind its indentation. -/
def laidOut (f : Function) (ops : List String) : String :=
  "\n" ++ "fun " ++ f.name ++ "\n" ++
    String.join (f.locals.items.toList.zipIdx.map fun (slot, i) =>
      "  " ++ slot.name ++ " #" ++ i.repr ++ " " ++ slot.typeName ++ "\n") ++
    "  \x7b\n" ++ String.join (List.zipWith (fun k op => Text.blanks k ++ op ++ "\n") (opsIndents f 1 f.body) ops) ++
    "  \x7d\n"

/-- Entries without faults, in lines without faults, stand behind their indentations. -/
theorem padded_of_no_fault {ks : List Nat} {ops : List String}
    (h : (List.zipWith padded ks (ops.map .ok)).findSome? fault? = none) :
    List.zipWith padded ks (ops.map .ok) = (List.zipWith (fun k op => Text.blanks k ++ op) ks ops).map .ok := by
  induction ks generalizing ops with
  | nil => rfl
  | cons k ks ih =>
    cases ops with
    | nil => rfl
    | cons op ops =>
      rw [List.map_cons, List.zipWith_cons_cons, List.findSome?_cons] at h
      by_cases hfits : k ≤ Text.maxPadding
      · rw [padded_of_le hfits] at h
        rw [List.map_cons, List.zipWith_cons_cons, List.zipWith_cons_cons, List.map_cons, padded_of_le hfits, ih h]
      · rw [padded_of_lt (Nat.not_le.mp hfits)] at h
        cases h

theorem dumpLines_of_entries {f : Function} {ops : List String} (h : opsEntries f f.body = ops.map .ok)
    (hfault : f.firstFault? = none) :
    f.dumpLines =
      ("" :: ("fun " ++ f.name) ::
        (f.locals.items.toList.zipIdx.map fun (slot, i) =>
          Text.blanks 2 ++ (slot.name ++ " #" ++ i.repr ++ " " ++ slot.typeName)) ++
        (Text.blanks 2 ++ "\x7b") :: List.zipWith (fun k op => Text.blanks k ++ op) (opsIndents f 1 f.body) ops ++
        [Text.blanks 2 ++ "\x7d"]).map .ok := by
  have hbody : opsLines f 1 f.body =
      (List.zipWith (fun k op => Text.blanks k ++ op) (opsIndents f 1 f.body) ops).map .ok := by
    have hlines := (opsLines_indented f 1 f.body).2
    rw [h] at hlines
    rw [hlines]
    exact padded_of_no_fault (hlines ▸ (fault_opsLines f 0 f.body).trans hfault)
  have hone : ∀ line, indented 1 (.ok line) = .ok (Text.blanks 2 ++ line) := fun _ => rfl
  simp [dumpLines, slotLine, hbody, hone]

theorem dump_of_entries {f : Function} {ops : List String} (h : opsEntries f f.body = ops.map .ok)
    (hfault : f.firstFault? = none) : f.dump = .ok (f.laidOut ops) := by
  rw [dump, dumpLines_of_entries h hfault, textOfLines_map_ok]
  have hblanks : Text.blanks 2 = "  " := by decide
  have hbraces : "  " ++ "\x7b" ++ "\n" = "  \x7b\n" ∧ "  " ++ "\x7d" ++ "\n" = "  \x7d\n" := by decide
  simp [laidOut, hblanks, hbraces, List.map_zipWith, Function.comp_def, String.append_assoc, -String.reduceAppend]

/-! ### No entry has a line break -/

theorem not_mem_textLines {f : Function} {op : Op} {line : String} (h : .ok line ∈ op.textLines f) :
    '\n' ∉ line.toList := by
  unfold Op.textLines at h
  split at h
  · cases List.mem_singleton.mp h
  · cases h
  · rename_i text _
    obtain ⟨l, hl, heq⟩ := List.mem_map.mp h
    cases heq
    obtain ⟨cs, hcs, rfl⟩ := List.mem_map.mp hl
    rw [String.toList_ofList]
    exact Text.not_mem_of_mem_split hcs

mutual

theorem not_mem_opEntries (f : Function) (op : Op) {line : String} (h : .ok line ∈ opEntries f op) :
    '\n' ∉ line.toList := by
  cases op with
  | scope body =>
    rw [opEntries, List.mem_append, List.mem_cons, List.mem_singleton] at h
    rcases h with (heq | h) | heq
    · cases heq
      decide
    · exact not_mem_opsEntries f body h
    · cases heq
      decide
  | comment text | declare index token | ldlr index token | plain opcode operand =>
    rw [opEntries] at h
    exact not_mem_textLines h

theorem not_mem_opsEntries (f : Function) (ops : List Op) {line : String} (h : .ok line ∈ opsEntries f ops) :
    '\n' ∉ line.toList := by
  cases ops with
  | nil => cases h
  | cons op ops =>
    rw [opsEntries, List.mem_append] at h
    rcases h with h | h
    · exact not_mem_opEntries f op h
    · exact not_mem_opsEntries f ops h

end

/-! ### Agreement -/

/-- Let the slots of a function be in range. Each operation in its code record is one line, and there are as many as
    indentations. The dump is laid out from them if no operation is too deep, and otherwise there is none. -/
theorem dump_eq_laidOut_unless_deep (f : Function) (h : f.LocalsInRange) :
    ∃ code, f.codeRecord = .ok code ∧ (opsIndents f 1 f.body).length = code.ops.length ∧
      (∀ op ∈ code.ops, '\n' ∉ op.toList) ∧ (f.Shallow → f.dump = .ok (f.laidOut code.ops)) ∧
      (¬f.Shallow → f.dump = .error .tooDeep) := by
  have hfault : (opsEntries f f.body).findSome? fault? = none := by rw [fault_listing, inRange_iff.mp h]; rfl
  obtain ⟨ops, hops⟩ := eq_map_ok_of_no_fault hfault
  refine ⟨_, codeRecord_of_entries hops, ?_, fun op hop => ?_, fun hshallow => ?_, dump_of_deep h⟩
  · rw [(opsLines_indented f 1 f.body).1, hops, List.length_map]
  · exact not_mem_opsEntries f f.body (hops ▸ List.mem_map_of_mem hop)
  · exact dump_of_entries hops (firstFault?_eq_none_iff.mpr ⟨h, hshallow⟩)

/-- A function with scopes in scopes, remarks of several lines and of none, and a type over two lines. -/
def nested : Function :=
  ⟨"Loop", .ofList [⟨"i", "pair\nof i32"⟩],
    [.comment "first\n\nthird",
      .scope [.declare 0 "i", .comment "", .scope [.ldlr 0 "i", .plain .br (.symbol "top")]],
      .plain .ret .none]⟩

theorem nested_dump_eq_laidOut : nested.LocalsInRange ∧ nested.Shallow ∧
    ∃ code, nested.codeRecord = .ok code ∧ (opsIndents nested 1 nested.body).length = code.ops.length ∧
      (∀ op ∈ code.ops, '\n' ∉ op.toList) ∧ nested.dump = .ok (nested.laidOut code.ops) := by
  obtain ⟨hrange, hshallow⟩ := firstFault?_eq_none_iff.mp (show nested.firstFault? = none from rfl)
  obtain ⟨code, hcode, hlength, hlines, hdump, -⟩ := dump_eq_laidOut_unless_deep nested hrange
  exact ⟨hrange, hshallow, code, hcode, hlength, hlines, hdump hshallow⟩

/-- The code record of 32767 scopes in each other has no dump beside it. -/
theorem listed_but_too_deep :
    ¬∀ f : Function, f.LocalsInRange → ∃ code, f.codeRecord = .ok code ∧ f.dump = .ok (f.laidOut code.ops) := by
  intro h
  obtain ⟨code, -, hdump⟩ := h (deep 0x7FFF) (deep_inRange _)
  exact deep_not_shallow (exists_dump_iff.mp ⟨_, hdump⟩).2

end Function
end Backend
