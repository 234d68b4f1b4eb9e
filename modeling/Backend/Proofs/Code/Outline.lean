import Backend.Proofs.Code.Locals
import Backend.Proofs.Code.Remark
import Backend.Proofs.Number.Layout

/-! Scopes in a listing. A listing is flat, and a scope stands in it between two braces. No operation has a brace for a
    line of its text as long as the names in it have no line breaks. So the scopes can be read off the listing again,
    and without the braces it has just the lines of all operations on a walk. -/

namespace Backend

/-! ### Texts without line breaks -/

theorem Text.break_not_mem_toDigits (n : Nat) : '\n' ∉ Nat.toDigits 16 n := by
  have hdigit : ∀ d < 16, '\n' ≠ Nat.digitChar d := by decide
  induction n using Nat.strongRecOn with
  | ind n ih =>
    by_cases hn : n < 16
    · rw [Nat.toDigits_of_lt_base hn, List.mem_singleton]
      exact hdigit n hn
    · rw [Nat.toDigits_of_base_le (by decide) (Nat.not_lt.mp hn), List.mem_append, List.mem_singleton, not_or]
      exact ⟨ih (n / 16) (by omega), hdigit (n % 16) (Nat.mod_lt n (by decide))⟩

theorem Text.break_not_mem_quoteChar (c : Char) : '\n' ∉ quoteChar c := by
  by_cases hbreak : c = '\n'
  · rw [hbreak]
    decide
  · have hself : '\n' ∉ [c] := fun h => hbreak (List.mem_singleton.mp h).symm
    have hcode := break_not_mem_toDigits c.toNat
    simp only [quoteChar, if_neg hbreak]
    split_ifs <;> simp [hcode, hself]

theorem Text.break_not_mem_quoted (s : String) : '\n' ∉ (quoted s).toList := by
  simp [quoted, break_not_mem_quoteChar]

theorem break_not_mem_natRepr (n : Nat) : '\n' ∉ n.repr.toList := by
  intro h
  rw [Nat.toList_repr] at h
  exact absurd (Nat.isDigit_of_mem_toDigits (by decide) (by decide) h) (by decide)

theorem break_not_mem_intRepr (n : Int) : '\n' ∉ n.repr.toList := by
  cases n with
  | ofNat n => exact break_not_mem_natRepr n
  | negSucc n =>
    have hdigits := break_not_mem_natRepr (n + 1)
    rw [Int.repr, String.toList_append, List.mem_append, not_or]
    exact ⟨by decide, hdigits⟩

theorem Binary64.break_not_mem_shown (x : Binary64) : '\n' ∉ x.shown.toList := by
  unfold shown
  split
  · decide
  · split
    · split <;> decide
    · rw [String.toList_ofList]
      intro h
      obtain ⟨n, hn⟩ := Option.isSome_iff_exists.mp (shownLayout.numeral?_write x)
      exact absurd ((Json.numeral?_isNumeric hn).2 _ h) (by decide)

/-! ### Lines that are no braces -/

def isBrace (entry : String) : Bool := entry = "\x7b" || entry = "\x7d"

theorem not_isBrace_of_head {entry : String} {c : Char} (h : entry.toList.head? = some c) (hopen : c ≠ '\x7b')
    (hclose : c ≠ '\x7d') : isBrace entry = false := by
  rw [isBrace, Bool.or_eq_false_iff, decide_eq_false_iff_not, decide_eq_false_iff_not]
  constructor
  · rintro rfl
    exact hopen (Option.some.inj h).symm
  · rintro rfl
    exact hclose (Option.some.inj h).symm

/-- The names in an operation have no line breaks. What a remark or a quoted string holds is no name. -/
def Op.NamesUnbroken : Op → Prop
  | .declare _ token => '\n' ∉ token.toList
  | .ldlr _ token => '\n' ∉ token.toList
  | .plain _ (.symbol name) => '\n' ∉ name.toList
  | _ => True

instance : DecidablePred Op.NamesUnbroken
  | .scope _ => isTrue trivial
  | .comment _ => isTrue trivial
  | .declare _ token => inferInstanceAs (Decidable ('\n' ∉ token.toList))
  | .ldlr _ token => inferInstanceAs (Decidable ('\n' ∉ token.toList))
  | .plain _ .none => isTrue trivial
  | .plain _ (.int _) => isTrue trivial
  | .plain _ (.float _) => isTrue trivial
  | .plain _ (.str _) => isTrue trivial
  | .plain _ (.symbol name) => inferInstanceAs (Decidable ('\n' ∉ name.toList))

theorem Operand.break_not_mem_text {opcode : Opcode} {operand : Operand} (h : (Op.plain opcode operand).NamesUnbroken) :
    '\n' ∉ operand.text.toList := by
  cases operand with
  | none => decide
  | int n => exact break_not_mem_intRepr n
  | float x => exact x.break_not_mem_shown
  | str s => exact Text.break_not_mem_quoted s
  | symbol name => exact h

namespace Function

/-- The lines of an operation's own text. A scope has none. -/
def ownLines (f : Function) (op : Op) : List String :=
  match op.text? f with
  | .ok (some text) => Text.lines text
  | _ => []

/-- A text that starts with a mnemonic and has no line break is one line, and no brace. -/
theorem not_isBrace_mnemonic (o : Opcode) {rest : String} (hrest : '\n' ∉ rest.toList) :
    ∀ line ∈ Text.lines (o.mnemonic ++ rest), isBrace line = false := by
  obtain ⟨c, hhead, hlower⟩ := o.mnemonic_head
  have hbreak : '\n' ∉ o.mnemonic.toList := fun h => absurd (Opcode.isLower_of_mem_mnemonic _ h) (by decide)
  have hone : '\n' ∉ (o.mnemonic ++ rest).toList := by
    rw [String.toList_append, List.mem_append, not_or]
    exact ⟨hbreak, hrest⟩
  rw [Text.lines_of_not_mem hone]
  intro line hline
  rw [List.mem_singleton.mp hline]
  refine not_isBrace_of_head (c := c) ?_ ?_ ?_
  · rw [String.toList_append, List.head?_append, hhead, Option.some_or]
  · rintro rfl
    exact absurd hlower (by decide)
  · rintro rfl
    exact absurd hlower (by decide)

theorem not_isBrace_comment (text : String) : ∀ line ∈ Text.lines (Op.commentText text), isBrace line = false := by
  intro line h
  by_cases htext : text = ""
  · have hblank : Text.lines (Op.commentText text) = [""] := by rw [htext]; rfl
    rw [hblank, List.mem_singleton] at h
    rw [h]
    decide
  · rw [Op.lines_commentText htext] at h
    obtain ⟨said, -, rfl⟩ := List.mem_map.mp h
    obtain ⟨rest, hmark⟩ := Op.prefix_marked said
    exact not_isBrace_of_head (by rw [← hmark]; rfl) (by decide : '/' ≠ _) (by decide)

/-- The names of a function's code have no line breaks: those in its operations, and the types of its slots. -/
structure NamesUnbroken (f : Function) : Prop where
  types : ∀ slot ∈ f.locals.items.toList, '\n' ∉ slot.typeName.toList
  ops : ∀ path op, Op.at? f.body path = some op → op.NamesUnbroken

theorem not_isBrace_localText {f : Function} (h : f.NamesUnbroken) {opcode : Opcode} {index : Nat} {token text : String}
    (htoken : '\n' ∉ token.toList) (htext : Op.localText f opcode index token = .ok text) :
    ∀ line ∈ Text.lines text, isBrace line = false := by
  unfold Op.localText slot at htext
  cases hslot : f.locals.get? index with
  | none =>
    rw [hslot] at htext
    cases htext
  | some slot =>
    rw [hslot] at htext
    cases htext
    have htype := h.types slot (Array.mem_toList_iff.mpr (Array.mem_of_getElem? hslot))
    simp only [String.append_assoc]
    refine not_isBrace_mnemonic opcode ?_
    simp only [String.toList_append, List.mem_append, not_or]
    exact ⟨by decide, break_not_mem_natRepr index, by decide, htoken, by decide, htype⟩

theorem not_isBrace_ownLines {f : Function} (h : f.NamesUnbroken) {op : Op} (hop : op.NamesUnbroken) :
    ∀ line ∈ f.ownLines op, isBrace line = false := by
  unfold ownLines
  split
  · rename_i text htext
    cases op with
    | scope body => cases htext
    | comment text =>
      cases htext
      exact not_isBrace_comment _
    | declare index token | ldlr index token =>
      rw [Op.text?] at htext
      cases hlocal : Op.localText f _ index token with
      | error e =>
        rw [hlocal] at htext
        cases htext
      | ok text' =>
        rw [hlocal] at htext
        cases htext
        exact not_isBrace_localText h hop hlocal
    | plain opcode operand =>
      cases htext
      split
      · have hnone := not_isBrace_mnemonic opcode (by decide : '\n' ∉ "".toList)
        rwa [String.append_empty] at hnone
      · rw [String.append_assoc]
        refine not_isBrace_mnemonic opcode ?_
        rw [String.toList_append, List.mem_append, not_or]
        exact ⟨by decide, Operand.break_not_mem_text hop⟩
  · intro line hline
    cases hline

end Function

/-! ### Reading the scopes off a listing -/

/-- What a listing tells: lines, and blocks that tell more. -/
inductive Outline where
  | line (text : String)
  | block (inside : List Outline)

namespace Outline

/-- A listing on the way through it: what the innermost block that is open has told so far, and the blocks around it,
    from the inside out. -/
structure Reading where
  inside : List Outline
  around : List (List Outline)

/-- Goes on by one entry. Where no block is open, none can be closed. -/
def Reading.next (r : Reading) (entry : String) : Option Reading :=
  if entry = "\x7b" then some ⟨[], r.inside :: r.around⟩
  else if entry = "\x7d" then
    match r.around with
    | [] => none
    | outer :: around => some ⟨outer ++ [.block r.inside], around⟩
  else some ⟨r.inside ++ [.line entry], r.around⟩

/-- What a listing tells, if each block that is closed was opened and each that is opened is closed. -/
def ofListing? (entries : List String) : Option (List Outline) :=
  match entries.foldlM Reading.next ⟨[], []⟩ with
  | some ⟨told, []⟩ => some told
  | _ => none

theorem next_of_not_isBrace {entry : String} (h : isBrace entry = false) (r : Reading) :
    r.next entry = some ⟨r.inside ++ [.line entry], r.around⟩ := by
  rw [isBrace, Bool.or_eq_false_iff, decide_eq_false_iff_not, decide_eq_false_iff_not] at h
  rw [Reading.next, if_neg h.1, if_neg h.2]

/-- The blocks that are open are those that were opened and not closed. -/
theorem depth_next {r r' : Reading} {entry : String} (h : r.next entry = some r') :
    r'.around.length + [entry].count "\x7d" = r.around.length + [entry].count "\x7b" := by
  unfold Reading.next at h
  split at h
  · rename_i hopen
    cases h
    simp [hopen]
  · rename_i hopen
    split at h
    · rename_i hclose
      split at h
      · cases h
      · rename_i outer around hr
        cases h
        simp [hclose, hr]
    · rename_i hclose
      cases h
      simp [hopen, hclose]

theorem depth_foldlM {r r' : Reading} {entries : List String} (h : entries.foldlM Reading.next r = some r') :
    r'.around.length + entries.count "\x7d" = r.around.length + entries.count "\x7b" := by
  induction entries generalizing r with
  | nil =>
    cases h
    rfl
  | cons entry entries ih =>
    rw [List.foldlM_cons] at h
    obtain ⟨r₁, hnext, hrest⟩ := Option.bind_eq_some_iff.mp h
    have hfirst := depth_next hnext
    have hlater := ih hrest
    rw [← List.singleton_append, List.count_append, List.count_append]
    omega

/-- Nothing that can be read closes more than it opens, at any place in it. -/
theorem balanced_of_ofListing? {entries : List String} {told : List Outline} (h : ofListing? entries = some told) :
    (∀ start, start <+: entries → start.count "\x7d" ≤ start.count "\x7b") ∧
      entries.count "\x7d" = entries.count "\x7b" := by
  unfold ofListing? at h
  split at h
  · rename_i told' hread
    refine ⟨?_, by simpa using depth_foldlM hread⟩
    rintro start ⟨rest, rfl⟩
    rw [List.foldlM_append] at hread
    obtain ⟨r, hstart, -⟩ := Option.bind_eq_some_iff.mp hread
    have hdepth := depth_foldlM hstart
    simp only [List.length_nil] at hdepth
    omega
  · cases h

/-- A part of a listing tells the outline, whatever is open around it, and has the lines besides its braces. -/
structure Tells (entries : List String) (told : List Outline) (lines : List String) : Prop where
  read : ∀ r : Reading, entries.foldlM Reading.next r = some ⟨r.inside ++ told, r.around⟩
  besides : entries.filter (!isBrace ·) = lines

namespace Tells
variable {entries entries' lines lines' : List String} {told told' : List Outline}

theorem nil : Tells [] [] [] := ⟨fun r => by simp, rfl⟩

theorem append (h : Tells entries told lines) (h' : Tells entries' told' lines') :
    Tells (entries ++ entries') (told ++ told') (lines ++ lines') where
  read := fun r => by
    rw [List.foldlM_append, h.read]
    simp [h'.read]
  besides := by rw [List.filter_append, h.besides, h'.besides]

theorem block (h : Tells entries told lines) : Tells ("\x7b" :: entries ++ ["\x7d"]) [.block told] lines where
  read := fun r => by
    have hopen : r.next "\x7b" = some ⟨[], r.inside :: r.around⟩ := rfl
    rw [List.foldlM_append, List.foldlM_cons, hopen]
    simp [h.read, Reading.next]
  besides := by
    have hbraces : isBrace "\x7b" = true ∧ isBrace "\x7d" = true := by decide
    simp [hbraces, h.besides]

theorem of_lines (h : ∀ line ∈ lines, isBrace line = false) : Tells lines (lines.map .line) lines where
  read := fun r => by
    induction lines generalizing r with
    | nil => simp
    | cons line lines ih =>
      obtain ⟨hline, hlines⟩ := List.forall_mem_cons.mp h
      rw [List.foldlM_cons, next_of_not_isBrace hline]
      simp [ih hlines]
  besides := by
    rw [List.filter_eq_self]
    intro line hline
    rw [h line hline]
    rfl

theorem ofListing?_eq (h : Tells entries told lines) : ofListing? entries = some told := by
  rw [ofListing?, h.read]
  rfl

end Tells
end Outline

/-! ### The scopes of a function -/

namespace Function
open Outline

mutual

/-- An operation as a listing tells it: a scope is a block, and any other operation the lines of its text. -/
def outline (f : Function) : Op → List Outline
  | .scope body => [.block (outlines f body)]
  | op => (f.ownLines op).map .line

def outlines (f : Function) : List Op → List Outline
  | [] => []
  | op :: ops => outline f op ++ outlines f ops

end

theorem textLines_eq {f : Function} {op : Op} (h : f.opFault? op = none) :
    op.textLines f = (f.ownLines op).map .ok := by
  rw [← fault_textLines, Op.textLines] at h
  rw [Op.textLines, ownLines]
  rcases htext : op.text? f with e | (_ | text)
  · rw [htext] at h
    cases h
  · rfl
  · rfl

section
variable {f : Function}

theorem tells_ownLines (h : f.NamesUnbroken) {op : Op} (hop : f.opFault? op = none ∧ op.NamesUnbroken) :
    ∃ entries, op.textLines f = entries.map .ok ∧ Tells entries ((f.ownLines op).map .line) (f.ownLines op) :=
  ⟨_, textLines_eq hop.1, .of_lines (not_isBrace_ownLines h hop.2)⟩

mutual

theorem tells_opEntries (h : f.NamesUnbroken) (op : Op)
    (hops : ∀ o ∈ Op.walk op, f.opFault? o = none ∧ o.NamesUnbroken) :
    ∃ entries, opEntries f op = entries.map .ok ∧ Tells entries (outline f op) ((Op.walk op).flatMap f.ownLines) := by
  cases op with
  | scope body =>
    rw [Op.walk] at hops ⊢
    obtain ⟨entries, hentries, htells⟩ := tells_opsEntries h body (List.forall_mem_cons.mp hops).2
    refine ⟨"\x7b" :: entries ++ ["\x7d"], ?_, ?_⟩
    · rw [opEntries, hentries]
      simp
    · rw [outline, List.flatMap_cons]
      exact htells.block
  | comment text | declare index token | ldlr index token | plain opcode operand =>
    rw [Op.walk] at hops ⊢
    · rw [opEntries, outline, List.flatMap_singleton]
      · exact tells_ownLines h (hops _ List.mem_cons_self)
      · nofun
    all_goals nofun

theorem tells_opsEntries (h : f.NamesUnbroken) (ops : List Op)
    (hops : ∀ o ∈ Op.walkAll ops, f.opFault? o = none ∧ o.NamesUnbroken) :
    ∃ entries, opsEntries f ops = entries.map .ok ∧
      Tells entries (outlines f ops) ((Op.walkAll ops).flatMap f.ownLines) := by
  cases ops with
  | nil => exact ⟨[], rfl, .nil⟩
  | cons op ops =>
    rw [Op.walkAll] at hops ⊢
    obtain ⟨hfirst, hrest⟩ := List.forall_mem_append.mp hops
    obtain ⟨entries, hentries, htells⟩ := tells_opEntries h op hfirst
    obtain ⟨entries', hentries', htells'⟩ := tells_opsEntries h ops hrest
    refine ⟨entries ++ entries', ?_, ?_⟩
    · rw [opsEntries, hentries, hentries', List.map_append]
    · rw [outlines, List.flatMap_append]
      exact htells.append htells'

end
end

/-- The listing of a function keeps its scopes. If its slots are in range and its names have no line breaks, nothing in
    the code record closes more scopes than it opens, at the end none is left open, and what can be read off it are the
    scopes of the function with the lines of all other operations in them. Without the braces it has just the lines of
    the operations on a walk. -/
theorem listing_keeps_scopes (f : Function) (hrange : f.LocalsInRange) (hnames : f.NamesUnbroken) :
    ∃ code, f.codeRecord = .ok code ∧
      (∀ start, start <+: code.ops → start.count "\x7d" ≤ start.count "\x7b") ∧
      code.ops.count "\x7d" = code.ops.count "\x7b" ∧ ofListing? code.ops = some (f.outlines f.body) ∧
      code.ops.filter (!isBrace ·) = (Op.walkAll f.body).flatMap f.ownLines := by
  have hops : ∀ o ∈ Op.walkAll f.body, f.opFault? o = none ∧ o.NamesUnbroken := by
    refine Op.forall_mem_walkAll.mpr fun path op hop => ⟨?_, hnames.ops path op hop⟩
    rw [opFault?, Option.map_eq_none_iff, undeclared?_eq_none]
    exact fun index hindex => hrange path op index hop (localIndex?_eq_some.mp hindex)
  obtain ⟨entries, hentries, htells⟩ := tells_opsEntries hnames f.body hops
  obtain ⟨hstarts, hcount⟩ := balanced_of_ofListing? htells.ofListing?_eq
  exact ⟨_, codeRecord_of_entries hentries, hstarts, hcount, htells.ofListing?_eq, htells.besides⟩

/-- A function with braces wherever they can stand: in remarks, in a type, in tokens, in a string and in a name. -/
def braced : Function :=
  ⟨"Braced", .ofList [⟨"i", "\x7d"⟩],
    [.comment "\x7b\n\n\x7d", .scope [.declare 0 "\x7b", .scope [], .comment "", .ldlr 0 "\x7d"],
      .plain .ldstr (.str "\n\x7d\n"), .plain .call (.symbol "\x7b"), .scope [.plain .ret .none]]⟩

theorem braced_listing_keeps_scopes : braced.LocalsInRange ∧ braced.NamesUnbroken ∧
    ∃ code, braced.codeRecord = .ok code ∧
      (∀ start, start <+: code.ops → start.count "\x7d" ≤ start.count "\x7b") ∧
      code.ops.count "\x7d" = code.ops.count "\x7b" ∧ ofListing? code.ops = some (braced.outlines braced.body) ∧
      code.ops.filter (!isBrace ·) = (Op.walkAll braced.body).flatMap braced.ownLines := by
  have hrange : braced.LocalsInRange := inRange_iff.mpr rfl
  have hnames : braced.NamesUnbroken := ⟨by decide, Op.forall_mem_walkAll.mp (by decide)⟩
  exact ⟨hrange, hnames, listing_keeps_scopes braced hrange hnames⟩

-- A name over several lines can close a scope that was never opened.
example : (listing ⟨"f", .empty, [.plain .call (.symbol "a\n\x7d")]⟩).toOption.bind ofListing? = none := by
  cbv

end Function
end Backend
