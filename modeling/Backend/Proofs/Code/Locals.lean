import Backend.Package.Projection
import Backend.Proofs.Code.Positions

/-! Operations that name a local slot which is not there. The check and the listing walk over the operations each in
    its own way. They succeed on the same functions, and on all others they stop at the same operation, the first in
    depth-first order that names a slot out of range. -/

namespace Backend

/-! ### Faults -/

/-- What is met in the place of a value. -/
def fault? {ε α : Type} : Except ε α → Option ε
  | .error e => some e
  | .ok _ => none

section
variable {ε α : Type} {l : List (Except ε α)} {e : ε}

theorem mapM_of_fault (h : l.findSome? fault? = some e) : l.mapM id = .error e := by
  induction l with
  | nil => cases h
  | cons x l ih =>
    cases x with
    | error e' =>
      cases h
      rfl
    | ok a => simp [List.mapM_cons, ih h, bind, Except.bind]

theorem mapM_map_ok (values : List α) : (values.map .ok : List (Except ε α)).mapM id = .ok values := by
  induction values with
  | nil => rfl
  | cons a values ih => simp [List.mapM_cons, ih, bind, Except.bind, pure, Except.pure]

theorem eq_map_ok_of_no_fault (h : l.findSome? fault? = none) : ∃ values : List α, l = values.map .ok := by
  induction l with
  | nil => exact ⟨[], rfl⟩
  | cons x l ih =>
    cases x with
    | error e' => cases h
    | ok a =>
      obtain ⟨values, hvalues⟩ := ih h
      exact ⟨a :: values, by rw [hvalues, List.map_cons]⟩

theorem fault?_map_ok (values : List α) : (values.map .ok : List (Except ε α)).findSome? fault? = none := by
  simp [List.findSome?_eq_none_iff, fault?]

end

namespace Function

/-! ### The first bad operation -/

/-- The fault of an operation itself. -/
def opFault? (f : Function) (op : Op) : Option BadLocal := (f.undeclared? op).map (·.slot)

theorem undeclared?_eq {f : Function} {op : Op} {index : Nat} (h : op.localIndex? = some index) :
    f.undeclared? op = if index < f.locals.size then none else some ⟨op.opcode, f.badLocal index⟩ := by
  by_cases hlt : index < f.locals.size
  · rw [if_pos hlt]
    simp [undeclared?, h, Indexed.contains, show index < f.locals.items.size from hlt]
  · rw [if_neg hlt]
    simp [undeclared?, h, Indexed.contains, show ¬index < f.locals.items.size from hlt]

theorem undeclared?_eq_none {f : Function} {op : Op} :
    f.undeclared? op = none ↔ ∀ index, op.localIndex? = some index → index < f.locals.size := by
  cases h : op.localIndex? with
  | none => simp [undeclared?, h]
  | some index => simp [undeclared?_eq h]

theorem undeclared?_eq_some {f : Function} {op : Op} {e : UndeclaredLocal} (h : f.undeclared? op = some e) :
    ∃ index, op.localIndex? = some index ∧ f.locals.size ≤ index ∧ e = ⟨op.opcode, f.badLocal index⟩ := by
  cases hi : op.localIndex? with
  | none => simp [undeclared?, hi] at h
  | some index =>
    rw [undeclared?_eq hi] at h
    split at h
    · cases h
    · rename_i hlt
      exact ⟨index, rfl, Nat.not_lt.mp hlt, (Option.some.inj h).symm⟩

theorem slot_eq (f : Function) (index : Nat) :
    (∃ slot, index < f.locals.size ∧ f.slot index = .ok slot) ∨
      (f.locals.size ≤ index ∧ f.slot index = .error (f.badLocal index)) := by
  unfold slot
  cases h : f.locals.get? index with
  | none => exact Or.inr ⟨Indexed.get?_eq_none_iff.mp h, rfl⟩
  | some slot =>
    refine Or.inl ⟨slot, Nat.not_le.mp fun hle => ?_, rfl⟩
    rw [Indexed.get?_eq_none_iff.mpr hle] at h
    cases h

/-- An operation that names a slot has no text just if the slot is not there. -/
theorem fault_localText (f : Function) (op : Op) (opcode : Opcode) (index : Nat) (token : String)
    (hop : op.localIndex? = some index) (htext : op.text? f = (Op.localText f opcode index token).map some) :
    (op.textLines f).findSome? fault? = f.opFault? op := by
  rw [opFault?, undeclared?_eq hop, Op.textLines, htext, Op.localText]
  rcases f.slot_eq index with ⟨slot, hlt, hslot⟩ | ⟨hle, hslot⟩
  · rw [hslot, if_pos hlt]
    exact fault?_map_ok _
  · rw [hslot, if_neg (Nat.not_lt.mpr hle)]
    rfl

theorem fault_textLines (f : Function) (op : Op) : (op.textLines f).findSome? fault? = f.opFault? op := by
  cases op with
  | scope body => rfl
  | comment text => exact fault?_map_ok _
  | declare index token => exact f.fault_localText _ .declare index token rfl rfl
  | ldlr index token => exact f.fault_localText _ .ldlr index token rfl rfl
  | plain opcode operand => exact fault?_map_ok _

mutual

theorem fault_opEntries (f : Function) (op : Op) :
    (opEntries f op).findSome? fault? = (Op.walk op).findSome? f.opFault? := by
  cases op with
  | scope body =>
    rw [opEntries, Op.walk, List.findSome?_append, List.findSome?_cons, List.findSome?_cons,
      f.fault_opsEntries body]
    exact Option.or_none
  | comment text | declare index token | ldlr index token | plain opcode operand =>
    rw [opEntries, f.fault_textLines, Op.walk]
    · simp
    all_goals simp

theorem fault_opsEntries (f : Function) (ops : List Op) :
    (opsEntries f ops).findSome? fault? = (Op.walkAll ops).findSome? f.opFault? := by
  cases ops with
  | nil => rfl
  | cons op ops =>
    rw [opsEntries, Op.walkAll, List.findSome?_append, List.findSome?_append, f.fault_opEntries op,
      f.fault_opsEntries ops]

end

/-! ### Two walks, one outcome -/

/-- The first thing that the check finds wrong. -/
def firstUndeclared? (f : Function) : Option UndeclaredLocal := (Op.walkAll f.body).findSome? f.undeclared?

theorem fault_listing (f : Function) : (opsEntries f f.body).findSome? fault? = f.firstUndeclared?.map (·.slot) := by
  rw [f.fault_opsEntries, firstUndeclared?, List.map_findSome?]
  rfl

theorem checkLocals_eq (f : Function) :
    f.checkLocals = match f.firstUndeclared? with
      | some e => .error e
      | none => .ok () := rfl

theorem checkLocals_eq_ok {f : Function} : f.checkLocals = .ok () ↔ f.firstUndeclared? = none := by
  rw [checkLocals_eq]
  cases f.firstUndeclared? <;> simp

theorem outcome_of_undeclared {f : Function} {e : UndeclaredLocal} (h : f.firstUndeclared? = some e) :
    f.checkLocals = .error e ∧ f.codeRecord = .error e.slot := by
  refine ⟨by rw [checkLocals_eq, h], ?_⟩
  rw [codeRecord, listing, mapM_of_fault (f.fault_listing.trans (congrArg _ h))]
  rfl

theorem codeRecord_of_entries {f : Function} {ops : List String} (h : opsEntries f f.body = ops.map .ok) :
    f.codeRecord = .ok ⟨f.locals.items.toList, ops⟩ := by
  rw [codeRecord, listing, h, mapM_map_ok]
  rfl

theorem outcome_of_declared {f : Function} (h : f.firstUndeclared? = none) :
    f.checkLocals = .ok () ∧ ∃ code, f.codeRecord = .ok code := by
  obtain ⟨ops, hops⟩ := eq_map_ok_of_no_fault (f.fault_listing.trans (congrArg _ h))
  exact ⟨by rw [checkLocals_eq, h], _, codeRecord_of_entries hops⟩

/-! ### Slots in range -/

/-- The operation makes a local slot live or loads a reference to it. -/
def NamesSlot (op : Op) (index : Nat) : Prop := ∃ token, op = .declare index token ∨ op = .ldlr index token

theorem localIndex?_eq_some {op : Op} {index : Nat} : op.localIndex? = some index ↔ NamesSlot op index := by
  cases op <;> simp [Op.localIndex?, NamesSlot]

/-- Every operation of the function, at any depth, names declared slots only. -/
def LocalsInRange (f : Function) : Prop :=
  ∀ path op index, Op.at? f.body path = some op → NamesSlot op index → index < f.locals.size

/-- The first operation in depth-first order that names a slot out of range: its position, it, and the slot. -/
def FirstOutOfRange (f : Function) (path : List Nat) (op : Op) (index : Nat) : Prop :=
  Op.at? f.body path = some op ∧ NamesSlot op index ∧ f.locals.size ≤ index ∧
    ∀ path' < path, ∀ op' index', Op.at? f.body path' = some op' → NamesSlot op' index' → index' < f.locals.size

theorem inRange_of_declared {f : Function} (h : f.firstUndeclared? = none) : f.LocalsInRange := by
  intro path op index hop hnames
  exact undeclared?_eq_none.mp (Op.walkAll_eq_none_iff.mp h path op hop) index (localIndex?_eq_some.mpr hnames)

theorem first_of_undeclared {f : Function} {e : UndeclaredLocal} (h : f.firstUndeclared? = some e) :
    ∃ path op index, FirstOutOfRange f path op index ∧ e = ⟨op.opcode, f.badLocal index⟩ := by
  obtain ⟨path, op, hop, he, hbefore⟩ := Op.first_of_walkAll h
  obtain ⟨index, hindex, hle, rfl⟩ := undeclared?_eq_some he
  refine ⟨path, op, index, ⟨hop, localIndex?_eq_some.mp hindex, hle, fun path' hlt op' index' hop' hnames => ?_⟩, rfl⟩
  exact undeclared?_eq_none.mp (hbefore path' hlt op' hop') index' (localIndex?_eq_some.mpr hnames)

theorem inRange_iff {f : Function} : f.LocalsInRange ↔ f.firstUndeclared? = none := by
  refine ⟨fun hrange => ?_, inRange_of_declared⟩
  cases h : f.firstUndeclared? with
  | none => rfl
  | some e =>
    obtain ⟨path, op, index, ⟨hop, hnames, hle, -⟩, -⟩ := first_of_undeclared h
    exact absurd (hrange path op index hop hnames) (Nat.not_lt.mpr hle)

theorem exists_codeRecord_iff {f : Function} : (∃ code, f.codeRecord = .ok code) ↔ f.LocalsInRange := by
  rw [inRange_iff]
  cases h : f.firstUndeclared? with
  | none => exact iff_of_true (outcome_of_declared h).2 rfl
  | some e =>
    refine iff_of_false ?_ (by simp)
    rintro ⟨code, hcode⟩
    cases (outcome_of_undeclared h).2.symm.trans hcode

end Function
end Backend
