import Backend.Code.Dump
import Backend.Proofs.Code.Locals

/-! What keeps a function from being dumped. The lines of a dump are padded by their depth, and padding has a limit. So
    besides operations that name no local slot there are those that stand too deep, and a dump fails at the first
    operation in depth-first order that is of either kind. The check and the listing do not pad, so they succeed on
    functions that have no dump. -/

namespace Backend

/-- The operation is a blank line, which is not padded. -/
def Op.isBlank : Op → Bool
  | .comment text => text.isEmpty
  | _ => false

namespace Function

/-! ### Faults of operations -/

/-- The lines of an operation at a level, or the braces of a scope, need a padding that there is not. -/
def TooDeep (level : Nat) (op : Op) : Prop := op.isBlank = false ∧ Text.maxPadding < 2 * (level + 1)

instance (level : Nat) (op : Op) : Decidable (TooDeep level op) := inferInstanceAs (Decidable (_ ∧ _))

/-- What keeps an operation at a level from being printed. Its slot is looked up before its lines are padded. -/
inductive FaultAt (f : Function) (level : Nat) (op : Op) : DumpFault → Prop where
  | badLocal {index : Nat} (names : NamesSlot op index) (out : f.locals.size ≤ index) :
    FaultAt f level op (.badLocal (f.badLocal index))
  | tooDeep (inRange : ∀ index, NamesSlot op index → index < f.locals.size) (deep : TooDeep level op) :
    FaultAt f level op .tooDeep

/-- The first operation in depth-first order that cannot be printed: its position, it, and why. -/
structure FirstFault (f : Function) (path : List Nat) (op : Op) (e : DumpFault) : Prop where
  found : Op.at? f.body path = some op
  fault : FaultAt f path.length op e
  first : ∀ q < path, ∀ op' e', Op.at? f.body q = some op' → ¬FaultAt f q.length op' e'

/-- No operation is too deep. -/
def Shallow (f : Function) : Prop := ∀ path op, Op.at? f.body path = some op → ¬TooDeep path.length op

theorem shallow_iff {f : Function} : f.Shallow ↔ ∀ p ∈ Op.walkAllLevels 0 f.body, ¬TooDeep p.1 p.2 := by
  simp only [Shallow, Op.forall_mem_walkAllLevels, Nat.zero_add]

instance (f : Function) : Decidable f.Shallow := decidable_of_iff _ shallow_iff.symm

/-- No operation in front of a position is too deep. -/
def ShallowBefore (f : Function) (path : List Nat) : Prop :=
  ∀ q < path, ∀ op, Op.at? f.body q = some op → ¬TooDeep q.length op

def faultAt? (f : Function) : Nat × Op → Option DumpFault
  | (level, op) => ((f.opFault? op).map .badLocal).or (if TooDeep level op then some .tooDeep else none)

section
variable {f : Function} {level : Nat} {op : Op} {e : DumpFault}

theorem opFault?_eq_none : f.opFault? op = none ↔ ∀ index, NamesSlot op index → index < f.locals.size := by
  simp only [opFault?, Option.map_eq_none_iff, undeclared?_eq_none, localIndex?_eq_some]

theorem opFault?_of_namesSlot {index : Nat} (hnames : NamesSlot op index) (hout : f.locals.size ≤ index) :
    f.opFault? op = some (f.badLocal index) := by
  rw [opFault?, undeclared?_eq (localIndex?_eq_some.mpr hnames), if_neg (Nat.not_lt.mpr hout)]
  rfl

theorem faultAt?_eq_some_iff : f.faultAt? (level, op) = some e ↔ FaultAt f level op e := by
  constructor
  · intro h
    cases hslot : f.undeclared? op with
    | some u =>
      obtain ⟨index, hindex, hout, rfl⟩ := undeclared?_eq_some hslot
      simp only [faultAt?, opFault?, hslot, Option.map_some, Option.some_or, Option.some.injEq] at h
      subst h
      exact .badLocal (localIndex?_eq_some.mp hindex) hout
    | none =>
      simp only [faultAt?, opFault?, hslot, Option.map_none, Option.none_or, Option.ite_none_right_eq_some] at h
      obtain ⟨hdeep, htooDeep⟩ := h
      cases htooDeep
      exact .tooDeep (fun index hnames => undeclared?_eq_none.mp hslot index (localIndex?_eq_some.mpr hnames)) hdeep
  · rintro (⟨hnames, hout⟩ | ⟨hrange, hdeep⟩)
    · rw [faultAt?, opFault?_of_namesSlot hnames hout]
      rfl
    · rw [faultAt?, opFault?_eq_none.mpr hrange, if_pos hdeep]
      rfl

theorem faultAt?_eq_none_iff : f.faultAt? (level, op) = none ↔
    (∀ index, NamesSlot op index → index < f.locals.size) ∧ ¬TooDeep level op := by
  rw [faultAt?, Option.or_eq_none_iff, Option.map_eq_none_iff, opFault?_eq_none]
  simp

theorem le_maxPadding_of_no_fault (h : f.faultAt? (level, op) = none) (hblank : op.isBlank = false) :
    2 * (level + 1) ≤ Text.maxPadding :=
  Nat.not_lt.mp fun hlt => (faultAt?_eq_none_iff.mp h).2 ⟨hblank, hlt⟩

theorem not_faultAt_iff : (∀ e, ¬FaultAt f level op e) ↔ f.faultAt? (level, op) = none := by
  simp only [← faultAt?_eq_some_iff, Option.eq_none_iff_forall_ne_some, Ne]

end

/-! ### Faults of lines -/

section
variable {lines : List DumpLine} {e : DumpFault}

theorem textOfLines_map_ok (lines : List String) :
    textOfLines (lines.map .ok) = .ok (String.join (lines.map (· ++ "\n"))) := by
  rw [textOfLines, mapM_map_ok]
  rfl

theorem exists_text_of_no_fault (h : lines.findSome? fault? = none) : ∃ text, textOfLines lines = .ok text := by
  obtain ⟨values, rfl⟩ := eq_map_ok_of_no_fault h
  exact ⟨_, textOfLines_map_ok values⟩

theorem textOfLines_of_fault (h : lines.findSome? fault? = some e) : textOfLines lines = .error e := by
  rw [textOfLines, mapM_of_fault h]
  rfl

end

/-- All operations but scopes have a text, if they have a slot. -/
theorem text?_ne_none {op : Op} (h : ∀ body, op ≠ .scope body) (f : Function) : op.text? f ≠ .ok none := by
  cases op with
  | scope body => exact absurd rfl (h body)
  | comment text | plain opcode operand => nofun
  | declare index token | ldlr index token =>
    rw [Op.text?, Op.localText]
    cases f.slot index <;> nofun

section
variable {f : Function} {op : Op}

/-- The text of an operation has a line, unless it is at fault. -/
theorem textLines_cases (h : ∀ body, op ≠ .scope body) :
    (∃ e, op.textLines f = [.error e] ∧ f.opFault? op = some e) ∨
      ∃ (line : String) (lines : List String), op.textLines f = .ok line :: lines.map .ok ∧ f.opFault? op = none := by
  rw [← f.fault_textLines op, Op.textLines]
  rcases htext : op.text? f with e | (_ | text)
  · exact Or.inl ⟨e, rfl, rfl⟩
  · exact absurd htext (text?_ne_none h f)
  · obtain ⟨line, lines, hlines⟩ : ∃ line lines, Text.lines text = line :: lines :=
      List.exists_cons_of_ne_nil (by simp [Text.lines, Text.splitLines, Text.split_ne_nil])
    exact Or.inr ⟨line, lines, congrArg (List.map Except.ok) hlines, fault?_map_ok _⟩

theorem opLines_of_text (h : ∀ body, op ≠ .scope body) (hblank : op.isBlank = false) (level : Nat) :
    opLines f level op = (op.textLines f).map (indented (level + 1)) := by
  cases op with
  | scope body => exact absurd rfl (h body)
  | comment text =>
    have htext : text.isEmpty = false := hblank
    rw [opLines, if_neg (Bool.eq_false_iff.mp htext)]
  | declare index token | ldlr index token | plain opcode operand => rw [opLines]

/-- The lines of an operation at fault start with the fault. -/
theorem opLines_of_faultAt {level : Nat} {e : DumpFault} (h : FaultAt f level op e) :
    ∃ rest, opLines f level op = .error e :: rest := by
  cases h with
  | badLocal hnames hout =>
    obtain ⟨hop, hblank⟩ : (∀ body, op ≠ .scope body) ∧ op.isBlank = false := by
      obtain ⟨token, rfl | rfl⟩ := hnames <;> simp [Op.isBlank]
    have hfault := opFault?_of_namesSlot hnames hout
    rw [opLines_of_text hop hblank]
    rcases textLines_cases hop with ⟨e, hlines, he⟩ | ⟨line, lines, -, hnone⟩
    · cases hfault.symm.trans he
      exact ⟨[], by rw [hlines]; rfl⟩
    · cases hfault.symm.trans hnone
  | tooDeep hrange hdeep =>
    by_cases hop : ∃ body, op = .scope body
    · obtain ⟨body, rfl⟩ := hop
      rw [opLines, indented_of_lt hdeep.2]
      exact ⟨_, rfl⟩
    · have hop : ∀ body, op ≠ .scope body := fun body h => hop ⟨body, h⟩
      rw [opLines_of_text hop hdeep.1]
      rcases textLines_cases hop with ⟨e, -, he⟩ | ⟨line, lines, hlines, -⟩
      · cases he.symm.trans (opFault?_eq_none.mpr hrange)
      · rw [hlines, List.map_cons, indented_of_lt hdeep.2]
        exact ⟨_, rfl⟩

theorem no_fault_opLines {level : Nat} (hop : ∀ body, op ≠ .scope body) (h : f.faultAt? (level, op) = none) :
    (opLines f level op).findSome? fault? = none := by
  cases hblank : op.isBlank with
  | true =>
    cases op with
    | comment text =>
      have htext : text.isEmpty = true := hblank
      rw [opLines, if_pos htext]
      rfl
    | scope body | declare index token | ldlr index token | plain opcode operand => cases hblank
  | false =>
    have hline := indented_of_le (le_maxPadding_of_no_fault h hblank)
    rw [opLines_of_text hop hblank]
    rcases textLines_cases hop with ⟨e, -, he⟩ | ⟨line, lines, hlines, -⟩
    · cases he.symm.trans (opFault?_eq_none.mpr (faultAt?_eq_none_iff.mp h).1)
    · simp [hlines, hline, fault?]

end

mutual

theorem fault_opLines (f : Function) (level : Nat) (op : Op) :
    (opLines f level op).findSome? fault? = (Op.walkLevels level op).findSome? f.faultAt? := by
  cases hfault : f.faultAt? (level, op) with
  | some e =>
    obtain ⟨rest, hrest⟩ := opLines_of_faultAt (faultAt?_eq_some_iff.mp hfault)
    obtain ⟨walked, hwalk⟩ := Op.walkLevels_eq_cons level op
    rw [hrest, hwalk, List.findSome?_cons, List.findSome?_cons, hfault]
    rfl
  | none =>
    cases op with
    | scope body =>
      have hbrace := indented_of_le (le_maxPadding_of_no_fault hfault rfl)
      rw [opLines, Op.walkLevels, List.cons_append, List.findSome?_cons, List.findSome?_cons, List.findSome?_append,
        fault_opsLines f level body, hfault, hbrace, hbrace]
      exact Option.or_none
    | comment text | declare index token | ldlr index token | plain opcode operand =>
      rw [no_fault_opLines (by simp) hfault, Op.walkLevels]
      · simp [hfault]
      · simp

theorem fault_opsLines (f : Function) (level : Nat) (ops : List Op) :
    (opsLines f (level + 1) ops).findSome? fault? = (Op.walkAllLevels level ops).findSome? f.faultAt? := by
  cases ops with
  | nil => rfl
  | cons op ops =>
    rw [opsLines, Op.walkAllLevels, List.findSome?_append, List.findSome?_append, fault_opLines f (level + 1) op,
      fault_opsLines f level ops]

end

/-- The lines of a function up to its first operation. -/
def headLines (f : Function) : List DumpLine :=
  .ok "" :: .ok ("fun " ++ f.name) ::
    (f.locals.items.toList.zipIdx.map fun (slot, i) => slotLine i slot) ++ [indented 1 (.ok "\x7b")]

theorem dumpLines_eq (f : Function) :
    f.dumpLines = f.headLines ++ (opsLines f 1 f.body ++ [indented 1 (.ok "\x7d")]) := by
  simp [dumpLines, headLines]

theorem no_fault_headLines (f : Function) : f.headLines.findSome? fault? = none := by
  refine List.findSome?_eq_none_iff.mpr fun line hline => ?_
  simp only [headLines, List.cons_append, List.mem_cons, List.mem_append, List.mem_map, List.not_mem_nil,
    or_false] at hline
  rcases hline with rfl | rfl | ⟨slot, -, rfl⟩ | rfl
  all_goals rfl

/-! ### Dumps -/

/-- The first thing that a dump finds wrong. -/
def firstFault? (f : Function) : Option DumpFault := (Op.walkAllLevels 0 f.body).findSome? f.faultAt?

theorem fault_dumpLines (f : Function) : f.dumpLines.findSome? fault? = f.firstFault? := by
  rw [dumpLines_eq, List.findSome?_append, f.no_fault_headLines, Option.none_or, List.findSome?_append,
    fault_opsLines f 0 f.body]
  exact Option.or_none

section
variable {f : Function} {path : List Nat} {op : Op} {e : DumpFault}

theorem dump_of_fault (h : f.firstFault? = some e) : f.dump = .error e :=
  textOfLines_of_fault (f.fault_dumpLines.trans h)

theorem firstFault?_eq_none_iff : f.firstFault? = none ↔ f.LocalsInRange ∧ f.Shallow := by
  simp only [firstFault?, Op.walkAllLevels_eq_none_iff, Nat.zero_add, faultAt?_eq_none_iff]
  constructor
  · intro h
    exact ⟨fun path op index hop => (h path op hop).1 index, fun path op hop => (h path op hop).2⟩
  · rintro ⟨hrange, hshallow⟩ path op hop
    exact ⟨fun index => hrange path op index hop, hshallow path op hop⟩

theorem exists_dump (hrange : f.LocalsInRange) (hshallow : f.Shallow) : ∃ text, f.dump = .ok text :=
  exists_text_of_no_fault (f.fault_dumpLines.trans (firstFault?_eq_none_iff.mpr ⟨hrange, hshallow⟩))

theorem exists_first_of_fault (h : f.firstFault? = some e) : ∃ path op, FirstFault f path op e := by
  obtain ⟨path, op, hop, hfault, hfirst⟩ := Op.first_of_walkAllLevels 0 f.body h
  simp only [Nat.zero_add] at hfault hfirst
  exact ⟨path, op, hop, faultAt?_eq_some_iff.mp hfault, fun q hq op' e' hop' =>
    not_faultAt_iff.mpr (hfirst q hq op' hop') e'⟩

/-- A function that does not meet both conditions has an operation that is the first to be at fault. -/
theorem exists_firstFault (h : ¬(f.LocalsInRange ∧ f.Shallow)) :
    ∃ path op e, FirstFault f path op e ∧ f.dump = .error e := by
  cases hfault : f.firstFault? with
  | none => exact absurd (firstFault?_eq_none_iff.mp hfault) h
  | some e =>
    obtain ⟨path, op, hfirst⟩ := exists_first_of_fault hfault
    exact ⟨path, op, e, hfirst, dump_of_fault hfault⟩

theorem FirstFault.eq_tooDeep (h : FirstFault f path op e)
    (hrange : ∀ index, NamesSlot op index → index < f.locals.size) : e = .tooDeep := by
  cases h.fault with
  | badLocal hnames hout => exact absurd (hrange _ hnames) (Nat.not_lt.mpr hout)
  | tooDeep => rfl

/-- There is one first operation at fault, and it has one fault. -/
theorem FirstFault.dump_eq (h : FirstFault f path op e) : f.dump = .error e := by
  have hfaulty : f.firstFault? ≠ none := by
    intro hnone
    have hfault := Op.walkAllLevels_eq_none_iff.mp hnone path op h.found
    rw [Nat.zero_add] at hfault
    exact not_faultAt_iff.mpr hfault e h.fault
  obtain ⟨e', he'⟩ := Option.ne_none_iff_exists'.mp hfaulty
  obtain ⟨path', op', h'⟩ := exists_first_of_fault he'
  -- Neither position comes before the other.
  have hle : ¬path' < path := fun hlt => h.first path' hlt op' e' h'.found h'.fault
  have hge : ¬path < path' := fun hlt => h'.first path hlt op e h.found h.fault
  cases List.le_antisymm (fun hlt => hle hlt) fun hlt => hge hlt
  cases h.found.symm.trans h'.found
  have hsame := (faultAt?_eq_some_iff.mpr h.fault).symm.trans (faultAt?_eq_some_iff.mpr h'.fault)
  rw [dump_of_fault he', Option.some.inj hsame]

end

/-! ### Slots and depth -/

section
variable {f : Function} {path : List Nat} {op : Op} {index : Nat}

/-- The first slot out of range is met just if nothing in front of it is too deep. -/
theorem firstFault_badLocal_iff : FirstFault f path op (.badLocal (f.badLocal index)) ↔
    FirstOutOfRange f path op index ∧ f.ShallowBefore path := by
  constructor
  · rintro ⟨hop, hfault, hfirst⟩
    have hbefore : ∀ q < path, ∀ op', Op.at? f.body q = some op' →
        (∀ index', NamesSlot op' index' → index' < f.locals.size) ∧ ¬TooDeep q.length op' :=
      fun q hq op' hop' => faultAt?_eq_none_iff.mp (not_faultAt_iff.mp fun e' => hfirst q hq op' e' hop')
    refine ⟨?_, fun q hq op' hop' => (hbefore q hq op' hop').2⟩
    obtain ⟨index', hnames, hout, hindex⟩ : ∃ index', NamesSlot op index' ∧ f.locals.size ≤ index' ∧ index' = index := by
      generalize he : DumpFault.badLocal (f.badLocal index) = e at hfault
      cases hfault with
      | badLocal hnames hout =>
        cases he
        exact ⟨_, hnames, hout, rfl⟩
      | tooDeep => cases he
    subst hindex
    exact ⟨hop, hnames, hout, fun q hq op' index' hop' => (hbefore q hq op' hop').1 index'⟩
  · rintro ⟨⟨hop, hnames, hout, hfirst⟩, hshallow⟩
    refine ⟨hop, .badLocal hnames hout, fun q hq op' e' hop' => not_faultAt_iff.mpr (faultAt?_eq_none_iff.mpr ?_) e'⟩
    exact ⟨fun index' => hfirst q hq op' index' hop', hshallow q hq op' hop'⟩

theorem exists_dump_iff : (∃ text, f.dump = .ok text) ↔ f.LocalsInRange ∧ f.Shallow := by
  constructor
  · rintro ⟨text, htext⟩
    refine Classical.byContradiction fun h => ?_
    obtain ⟨path, op, e, -, hdump⟩ := exists_firstFault h
    cases htext.symm.trans hdump
  · rintro ⟨hrange, hshallow⟩
    exact exists_dump hrange hshallow

theorem dump_of_deep (hrange : f.LocalsInRange) (hdeep : ¬f.Shallow) : f.dump = .error .tooDeep := by
  obtain ⟨path, op, e, hfirst, hdump⟩ := exists_firstFault fun h => hdeep h.2
  rw [hdump, hfirst.eq_tooDeep fun index => hrange path op index hfirst.found]

/-- What is too deep in front of the first slot out of range is met before it. -/
theorem FirstOutOfRange.dump_of_deep (h : FirstOutOfRange f path op index) (hdeep : ¬f.ShallowBefore path) :
    f.dump = .error .tooDeep := by
  obtain ⟨-, -, -, hrange⟩ := h
  simp only [ShallowBefore, Classical.not_forall, Classical.not_not] at hdeep
  obtain ⟨q, hq, op', hop', htooDeep⟩ := hdeep
  obtain ⟨path', op'', e, hfirst, hdump⟩ := exists_firstFault fun hf => hf.2 q op' hop' htooDeep
  have hle : ¬q < path' := fun hlt =>
    hfirst.first q hlt op' .tooDeep hop' (.tooDeep (fun index' => hrange q hq op' index' hop') htooDeep)
  have hlt : path' < path := List.lt_of_le_of_lt (fun hlt => hle hlt) hq
  rw [hdump, hfirst.eq_tooDeep fun index' => hrange path' hlt op'' index' hfirst.found]

end

/-- The check passes just if all slots are in range, and just then there is a code record. For a dump it takes also that
    no operation is too deep; otherwise the dump fails for that reason. If slots are out of range, the check and the code
    record fail with that of the first operation in depth-first order that names one, and so does the dump unless
    something in front of that operation is too deep. -/
theorem checkLocals_predicts_rendering_unless_deep (f : Function) :
    (f.checkLocals = .ok () ↔ f.LocalsInRange) ∧
    ((∃ code, f.codeRecord = .ok code) ↔ f.LocalsInRange) ∧
    ((∃ text, f.dump = .ok text) ↔ f.LocalsInRange ∧ f.Shallow) ∧
    (f.LocalsInRange → ¬f.Shallow → f.dump = .error .tooDeep) ∧
    (¬f.LocalsInRange → ∃ path op index, FirstOutOfRange f path op index ∧
      f.checkLocals = .error ⟨op.opcode, f.badLocal index⟩ ∧ f.codeRecord = .error (f.badLocal index) ∧
      (f.ShallowBefore path → f.dump = .error (.badLocal (f.badLocal index))) ∧
      (¬f.ShallowBefore path → f.dump = .error .tooDeep)) := by
  refine ⟨checkLocals_eq_ok.trans inRange_iff.symm, exists_codeRecord_iff, exists_dump_iff, dump_of_deep, fun h => ?_⟩
  obtain ⟨e, he⟩ := Option.ne_none_iff_exists'.mp (mt inRange_iff.mpr h)
  obtain ⟨hcheck, hcode⟩ := outcome_of_undeclared he
  obtain ⟨path, op, index, hfirst, rfl⟩ := first_of_undeclared he
  exact ⟨path, op, index, hfirst, hcheck, hcode,
    fun hshallow => (firstFault_badLocal_iff.mpr ⟨hfirst, hshallow⟩).dump_eq, hfirst.dump_of_deep⟩

/-! ### Scopes in scopes -/

/-- A number of scopes, each in the one before, and nothing else. -/
def scopes : Nat → List Op
  | 0 => []
  | n + 1 => [.scope (scopes n)]

theorem at?_scopes {n : Nat} {path : List Nat} {op : Op} (h : Op.at? (scopes n) path = some op) :
    path.length ≤ n ∧ ∃ body, op = .scope body := by
  induction n generalizing path with
  | zero => cases path <;> cases h
  | succ n ih =>
    cases path with
    | nil => cases h
    | cons i path =>
      cases i with
      | succ i => cases h
      | zero =>
        rw [scopes, Op.at?_cons_zero] at h
        cases path with
        | nil =>
          cases h
          exact ⟨Nat.succ_le_succ (Nat.zero_le n), _, rfl⟩
        | cons j path =>
          rw [Op.sub?_scope] at h
          obtain ⟨hlength, hscope⟩ := ih h
          exact ⟨Nat.succ_le_succ hlength, hscope⟩

theorem at?_scopes_innermost (n : Nat) : Op.at? (scopes (n + 1)) (List.replicate (n + 1) 0) = some (.scope []) := by
  induction n with
  | zero => rfl
  | succ n ih =>
    rwa [scopes, List.replicate_succ, Op.at?_cons_zero, List.replicate_succ, Op.sub?_scope, ← List.replicate_succ]

/-- A function of scopes only. -/
def deep (n : Nat) : Function := ⟨"deep", .empty, scopes n⟩

theorem deep_inRange (n : Nat) : (deep n).LocalsInRange := by
  intro path op index hop hnames
  obtain ⟨-, body, rfl⟩ := at?_scopes hop
  obtain ⟨token, hop | hop⟩ := hnames <;> cases hop

theorem deep_shallow_iff {n : Nat} : (deep n).Shallow ↔ 2 * (n + 1) ≤ Text.maxPadding := by
  constructor
  · intro h
    cases n with
    | zero => decide
    | succ n =>
      refine Nat.not_lt.mp fun hlt => h _ _ (at?_scopes_innermost n) ⟨rfl, ?_⟩
      rwa [List.length_replicate]
  · rintro h path op hop ⟨-, hdeep⟩
    have := (at?_scopes hop).1
    omega

theorem deep_not_shallow : ¬(deep 0x7FFF).Shallow := fun h => absurd (deep_shallow_iff.mp h) (by decide)

/-- The check passes on 32767 scopes in each other, and there is no dump of them. -/
theorem checked_but_too_deep :
    ¬∀ f : Function, f.checkLocals = .ok () ↔ ∃ text, f.dump = .ok text := by
  intro h
  have hcheck : (deep 0x7FFF).checkLocals = .ok () := checkLocals_eq_ok.mpr (inRange_iff.mp (deep_inRange _))
  exact deep_not_shallow (exists_dump_iff.mp ((h _).mp hcheck)).2

end Function
end Backend
