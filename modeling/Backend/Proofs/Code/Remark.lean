import Backend.Code.Dump
import Backend.Code.Listing

/-! Remarks among the operations. Each line of a remark has a mark before it, and behind the marks stands what the
    remark says. So it can be read off its text again. The text of code starts with a mnemonic, never with a mark, so
    nothing but the remark has that text. The empty remark alone has no mark: it is a blank line. -/

namespace Backend
namespace Op

/-! ### Marks -/

/-- A line of a remark behind its mark. -/
def marked (line : String) : String := String.ofList (commentLine line.toList)

/-- What a line says behind its mark, if it has one. -/
def unmarked? (line : String) : Option String :=
  match line.toList with
  | ['/', '/'] => some ""
  | '/' :: '/' :: ' ' :: said => some (String.ofList said)
  | _ => none

/-- What the lines of a text say behind their marks, if all have one. -/
def remark? (text : String) : Option String :=
  ((Text.lines text).mapM unmarked?).map fun said => String.ofList (Text.joinLines (said.map String.toList))

theorem prefix_commentLine (line : List Char) : ['/', '/'] <+: commentLine line := by
  unfold commentLine
  split
  · exact List.prefix_rfl
  · exact ⟨' ' :: line, rfl⟩

theorem prefix_marked (line : String) : ['/', '/'] <+: (marked line).toList := by
  rw [marked, String.toList_ofList]
  exact prefix_commentLine line.toList

theorem unmarked?_marked (line : String) : unmarked? (marked line) = some line := by
  unfold unmarked?
  rw [marked, String.toList_ofList]
  cases hline : line.toList with
  | nil => exact congrArg some (String.toList_eq_nil_iff.mp hline).symm
  | cons c cs =>
    -- There is something behind the mark, so it is not the bare one.
    show some (String.ofList (c :: cs)) = some line
    rw [← hline, String.ofList_toList]

/-! ### Lines of a remark -/

section
variable {text : String}

theorem commentText_eq (h : text ≠ "") :
    commentText text = String.ofList (Text.joinLines ((Text.splitLines text.toList).map commentLine)) :=
  if_neg (mt String.isEmpty_iff.mp h)

theorem lines_commentText (h : text ≠ "") : Text.lines (commentText text) = (Text.lines text).map marked := by
  have hne : (Text.splitLines text.toList).map commentLine ≠ [] :=
    mt List.map_eq_nil_iff.mp (Text.split_ne_nil '\n' text.toList)
  have hbreak : ∀ l ∈ (Text.splitLines text.toList).map commentLine, '\n' ∉ l := by
    intro l hl
    obtain ⟨piece, hpiece, rfl⟩ := List.mem_map.mp hl
    have hpiece' : '\n' ∉ piece := Text.not_mem_of_mem_split hpiece
    unfold commentLine
    split <;> simp [hpiece']
  rw [commentText_eq h, Text.lines_joinLines hne hbreak, Text.lines, List.map_map, List.map_map]
  refine List.map_congr_left fun piece _ => ?_
  rw [Function.comp_apply, Function.comp_apply, marked, String.toList_ofList]

theorem remark?_commentText (h : text ≠ "") : remark? (commentText text) = some text := by
  have hlines : (Text.lines (commentText text)).mapM unmarked? = some (Text.lines text) := by
    rw [lines_commentText h, List.mapM_map, funext (f := unmarked? ∘ marked) (g := some) unmarked?_marked]
    simpa using List.mapM_pure (m := Option) (l := Text.lines text) (f := id)
  rw [remark?, hlines, Option.map_some, Text.joinLines_lines, String.ofList_toList]

theorem head?_commentText (h : text ≠ "") : (commentText text).toList.head? = some '/' := by
  obtain ⟨piece, pieces, hsplit⟩ := List.exists_cons_of_ne_nil (Text.split_ne_nil '\n' text.toList)
  obtain ⟨rest, hmark⟩ := prefix_commentLine piece
  rw [commentText_eq h, String.toList_ofList, Text.splitLines, hsplit, List.map_cons, ← hmark]
  cases pieces <;> rfl

end

/-! ### Remarks and code -/

theorem mnemonic_of_localText {f : Function} {opcode : Opcode} {index : Nat} {token text : String}
    (h : localText f opcode index token = .ok text) : ∃ rest, text = opcode.mnemonic ++ rest := by
  unfold localText at h
  cases hslot : f.slot index with
  | error e =>
    rw [hslot] at h
    cases h
  | ok slot =>
    rw [hslot] at h
    cases h
    simp only [String.append_assoc]
    exact ⟨_, rfl⟩

/-- The text of code starts with the name of its operation. -/
theorem mnemonic_of_text? {f : Function} {op : Op} {text : String} (h : op.text? f = .ok (some text))
    (hop : ∀ remark, op ≠ .comment remark) : ∃ rest, text = op.opcode.mnemonic ++ rest := by
  cases op with
  | scope body => cases h
  | comment remark => exact absurd rfl (hop remark)
  | declare index token | ldlr index token =>
    rw [text?] at h
    cases hlocal : localText f _ index token with
    | error e =>
      rw [hlocal] at h
      cases h
    | ok text' =>
      rw [hlocal] at h
      cases h
      exact mnemonic_of_localText hlocal
  | plain opcode operand =>
    cases h
    split
    · exact ⟨"", String.append_empty.symm⟩
    · exact ⟨" " ++ operand.text, String.append_assoc⟩

/-- What starts with a slash is a remark that says something. -/
theorem eq_comment_of_head {f : Function} {op : Op} {text : String} (h : op.text? f = .ok (some text))
    (hhead : text.toList.head? = some '/') : ∃ remark, op = .comment remark ∧ remark ≠ "" := by
  by_cases hop : ∃ remark, op = .comment remark
  · obtain ⟨remark, rfl⟩ := hop
    refine ⟨remark, rfl, ?_⟩
    rintro rfl
    cases h
    cases hhead
  · obtain ⟨rest, rfl⟩ := mnemonic_of_text? h fun remark hremark => hop ⟨remark, hremark⟩
    -- A mnemonic starts with a small letter, which a slash is not.
    obtain ⟨c, hc, hlower⟩ := op.opcode.mnemonic_head
    rw [String.toList_append, List.head?_append, hc, Option.some_or] at hhead
    cases hhead
    exact absurd hlower (by decide)

/-- A remark that says something is read off its text again. Each line of the text starts with two slashes, there are as
    many as in the remark, and behind the marks they say what it says. No other operation of any function has that text,
    be it another remark, the empty one or code. The lines stand as they are in a listing, and in a dump one level deeper
    than their scope, as long as they can be padded that far. -/
theorem remarks_read_back (f : Function) (remark : String) (h : remark ≠ "") :
    ∃ text, (Op.comment remark).text? f = .ok (some text) ∧
      (∀ line ∈ Text.lines text, ['/', '/'] <+: line.toList) ∧
      (Text.lines text).length = (Text.lines remark).length ∧ remark? text = some remark ∧
      (∀ (g : Function) (op : Op), op.text? g = .ok (some text) → op = .comment remark) ∧
      f.opEntries (.comment remark) = (Text.lines text).map .ok ∧
      ∀ depth, 2 * (depth + 1) ≤ Text.maxPadding → f.opLines depth (.comment remark) =
        (Text.lines text).map fun line => .ok (Text.blanks (2 * (depth + 1)) ++ line) := by
  refine ⟨commentText remark, rfl, ?_, ?_, remark?_commentText h, ?_, ?_, ?_⟩
  · intro line hline
    rw [lines_commentText h] at hline
    obtain ⟨said, -, rfl⟩ := List.mem_map.mp hline
    exact prefix_marked said
  · rw [lines_commentText h, List.length_map]
  · intro g op hop
    obtain ⟨remark', rfl, hremark'⟩ := eq_comment_of_head hop (head?_commentText h)
    have htext : commentText remark' = commentText remark := Option.some.inj (Except.ok.inj hop)
    have hread := remark?_commentText hremark'
    rw [htext, remark?_commentText h] at hread
    rw [Option.some.inj hread]
  · rw [Function.opEntries]
    rfl
  · intro depth hdepth
    rw [Function.opLines, if_neg (mt String.isEmpty_iff.mp h), textLines, text?, List.map_map]
    exact List.map_congr_left fun line _ => Function.indented_of_le hdepth line

/-- A remark with empty lines at its ends, and lines that start with a slash and with a blank. -/
theorem slashes_read_back : "\n// a\n /\n" ≠ "" ∧
    (Op.comment "\n// a\n /\n").text? (.new "f") = .ok (some "//\n// // a\n//  /\n//") ∧
    (Text.lines "//\n// // a\n//  /\n//").length = (Text.lines "\n// a\n /\n").length ∧
    remark? "//\n// // a\n//  /\n//" = some "\n// a\n /\n" ∧
    ∀ (g : Function) (op : Op), op.text? g = .ok (some "//\n// // a\n//  /\n//") → op = .comment "\n// a\n /\n" := by
  have h : "\n// a\n /\n" ≠ "" := by decide
  have htext : (Op.comment "\n// a\n /\n").text? (.new "f") = .ok (some "//\n// // a\n//  /\n//") := by rfl
  obtain ⟨text, htext', -, hlength, hread, honly, -⟩ := remarks_read_back (.new "f") _ h
  cases htext.symm.trans htext'
  exact ⟨h, htext, hlength, hread, honly⟩

end Op
end Backend
