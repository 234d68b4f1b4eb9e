import Backend.Proofs.Effect
import Backend.Proofs.Symbol.Scopes
import Mathlib.Data.List.TakeWhile

/-! Adding a symbol in place is all or nothing. The symbol is put behind all others and then its parent is changed
    twice, so a fault on the way could leave a table with a loose end. There is none: whatever is refused is refused
    before the first change. An addition that succeeds is seen at the new symbol, among the children of its parent and
    under its name, and nowhere else; the scopes around the old symbols and their full names stay as they are. -/

namespace Backend
namespace SymbolTable

/-! ### Step by step and at once -/

section
variable (t : SymbolTable) (a : Addition)

theorem link_apply (parent : SymbolId) (name : String) (id : SymbolId) :
    link parent name id t = (.ok (), ⟨t.symbols.modify parent (·.addChild name id)⟩) := by
  unfold link Symbol.addChild
  by_cases hname : name.isEmpty = true
  · simp only [hname]
    rfl
  · simp only [hname]
    rw [bind_apply]
    show (Except.ok (), (⟨(t.symbols.modify parent _).modify parent _⟩ : SymbolTable)) = _
    rw [Indexed.modify_modify]
    rfl

/-- The steps come to what the addition is as a whole, and what fails has not begun. -/
theorem addInPlace_apply :
    addInPlace a.parent a.name a.kind a.token t =
      ((t.add a.parent a.name a.kind a.token).map Prod.fst, t.attempt a) := by
  have hget : (get : Editing SymbolTable) t = (.ok t, t) := rfl
  unfold attempt addInPlace add
  rw [bind_apply, hget]
  cases hs : t.get? a.parent with
  | none =>
    simp only [hs]
    rfl
  | some scope =>
    simp only [hs]
    split
    · rfl
    · rw [bind_apply, append]
      cases hpush : t.symbols.push (.leaf a.name a.kind a.token (some a.parent)) with
      | error fault => rfl
      | ok pushed =>
        simp only [bind_apply, link_apply]
        rfl

variable {t a}

theorem addInPlace_of_error {e : AddError} (h : t.add a.parent a.name a.kind a.token = .error e) :
    addInPlace a.parent a.name a.kind a.token t = (.error e, t) := by
  rw [addInPlace_apply, attempt, h]
  rfl

theorem addInPlace_of_ok {id : SymbolId} {t' : SymbolTable} (h : t.add a.parent a.name a.kind a.token = .ok (id, t')) :
    addInPlace a.parent a.name a.kind a.token t = (.ok id, t') := by
  rw [addInPlace_apply, attempt, h]
  rfl

end

/-! ### What is refused -/

/-- There is no such parent, or it has a child of that name. -/
def Refused (t : SymbolTable) (a : Addition) : Prop :=
  t.size ≤ a.parent ∨ a.name ≠ "" ∧ (t.child? a.parent a.name).isSome

section
variable {t : SymbolTable} {a : Addition}

theorem add_of_absent (h : t.size ≤ a.parent) :
    t.add a.parent a.name a.kind a.token = .error (.noParent a.parent) := by
  rw [add, get?_eq_none_iff.mpr h]

theorem add_of_taken (hlt : a.parent < t.size) (hne : a.name ≠ "") (htaken : (t.child? a.parent a.name).isSome) :
    t.add a.parent a.name a.kind a.token = .error (.duplicate (t.fullName a.parent) a.name) := by
  obtain ⟨scope, hs⟩ := get?_isSome_iff.mpr hlt
  have htaken : (scope.named.get? a.name).isSome := by simpa [child?, hs] using htaken
  simp [add, hs, hne, htaken]

theorem scope_of_not_refused (h : ¬Refused t a) :
    ∃ scope, t.get? a.parent = some scope ∧ ¬(!a.name.isEmpty && (scope.named.get? a.name).isSome) = true := by
  obtain ⟨hlt, hfree⟩ := not_or.mp h
  obtain ⟨scope, hs⟩ := get?_isSome_iff.mpr (Nat.not_le.mp hlt)
  exact ⟨scope, hs, by simpa [child?, hs] using hfree⟩

/-- What is not refused can only fail for want of a number. -/
theorem add_of_full (h : ¬Refused t a) (hfull : positionLimit ≤ t.size) :
    t.add a.parent a.name a.kind a.token = .error (.full ⟨⟩) := by
  obtain ⟨scope, hs, hfree⟩ := scope_of_not_refused h
  rw [add, hs]
  simp only [if_neg hfree]
  rw [Indexed.push_eq_error hfull]

theorem add_of_room (h : ¬Refused t a) (hroom : t.size < positionLimit) :
    ∃ t', t.add a.parent a.name a.kind a.token = .ok (t.size, t') := by
  obtain ⟨scope, hs, hfree⟩ := scope_of_not_refused h
  rw [add, hs]
  simp only [if_neg hfree]
  rw [Indexed.push_eq_ok.mpr ⟨hroom, rfl, rfl⟩]
  exact ⟨_, rfl⟩

/-- All that can come of an addition, with the table that is left. -/
theorem addInPlace_cases (t : SymbolTable) (a : Addition) :
    (t.size ≤ a.parent ∧ addInPlace a.parent a.name a.kind a.token t = (.error (.noParent a.parent), t)) ∨
    (a.parent < t.size ∧ (a.name ≠ "" ∧ (t.child? a.parent a.name).isSome) ∧
      addInPlace a.parent a.name a.kind a.token t = (.error (.duplicate (t.fullName a.parent) a.name), t)) ∨
    (¬Refused t a ∧ positionLimit ≤ t.size ∧
      addInPlace a.parent a.name a.kind a.token t = (.error (.full ⟨⟩), t)) ∨
    (¬Refused t a ∧ t.size < positionLimit ∧ ∃ t', Added t t' a ∧
      addInPlace a.parent a.name a.kind a.token t = (.ok t.size, t')) := by
  by_cases habsent : t.size ≤ a.parent
  · exact Or.inl ⟨habsent, addInPlace_of_error (add_of_absent habsent)⟩
  · have hlt : a.parent < t.size := Nat.not_le.mp habsent
    by_cases htaken : a.name ≠ "" ∧ (t.child? a.parent a.name).isSome
    · exact Or.inr (Or.inl ⟨hlt, htaken, addInPlace_of_error (add_of_taken hlt htaken.1 htaken.2)⟩)
    · have hfree : ¬Refused t a := not_or.mpr ⟨habsent, htaken⟩
      rcases Nat.lt_or_ge t.size positionLimit with hroom | hfull
      · obtain ⟨t', hadd⟩ := add_of_room hfree hroom
        exact Or.inr (Or.inr (Or.inr ⟨hfree, hroom, t', Added.of_add hadd, addInPlace_of_ok hadd⟩))
      · exact Or.inr (Or.inr (Or.inl ⟨hfree, hfull, addInPlace_of_error (add_of_full hfree hfull)⟩))

theorem Added.of_addInPlace {t' : SymbolTable} {id : SymbolId}
    (h : addInPlace a.parent a.name a.kind a.token t = (.ok id, t')) : id = t.size ∧ Added t t' a := by
  rcases addInPlace_cases t a with ⟨-, hr⟩ | ⟨-, -, hr⟩ | ⟨-, -, hr⟩ | ⟨-, -, _, hadded, hr⟩
  · cases h.symm.trans hr
  · cases h.symm.trans hr
  · cases h.symm.trans hr
  · cases h.symm.trans hr
    exact ⟨rfl, hadded⟩

end

/-! ### What stays -/

theorem WellFormed.lt_of_mem_ancestors {t : SymbolTable} (wf : t.WellFormed) {i j : SymbolId}
    (h : j ∈ t.ancestors i) : j < i := by
  have hmem : j ∈ (t.ancestors i).takeWhile fun _ => true := by
    rwa [List.takeWhile_eq_self_iff.mpr fun _ _ => rfl]
  exact wf.lt_of_encloses ((wf.mem_takeWhile_ancestors _).mp hmem).1

/-- All that can be asked about the old symbols is answered as before, but for the children of the new symbol's parent
    and for the new name among them. -/
structure Undisturbed (t t' : SymbolTable) (a : Addition) : Prop where
  name : ∀ i < t.size, t'.name i = t.name i
  kind : ∀ i < t.size, t'.kind? i = t.kind? i
  token : ∀ i < t.size, t'.token? i = t.token? i
  parent : ∀ i < t.size, t'.parent? i = t.parent? i
  ancestors : ∀ i < t.size, t'.ancestors i = t.ancestors i
  fullName : ∀ i < t.size, t'.fullName i = t.fullName i
  children : ∀ i < t.size, i ≠ a.parent → t'.children i = t.children i
  child : ∀ i n, (t.child? i n).isSome ∨ i ≠ a.parent ∨ n ≠ a.name → t'.child? i n = t.child? i n

/-- The new symbol is what was asked for, it stands last among the children of its parent, and its name finds it. -/
structure Placed (t t' : SymbolTable) (a : Addition) (id : SymbolId) : Prop where
  last : id = t.size ∧ t'.size = t.size + 1
  name : t'.name id = a.name
  kind : t'.kind? id = some a.kind
  token : t'.token? id = some a.token
  parent : t'.parent? id = some a.parent
  childless : t'.children id = [] ∧ ∀ n, t'.child? id n = none
  siblings : t'.children a.parent = t.children a.parent ++ [id]
  found : a.name ≠ "" → t'.child? a.parent a.name = some id

namespace Added
variable {t t' : SymbolTable} {a : Addition} {i : SymbolId}

theorem parent_of_lt (h : Added t t' a) (hi : i < t.size) : t'.parent? i = t.parent? i := by
  rw [h.parent, if_neg (Nat.ne_of_lt hi)]

theorem name_of_lt (h : Added t t' a) (hi : i < t.size) : t'.name i = t.name i := by
  rw [h.name, if_neg (Nat.ne_of_lt hi)]

/-- Nothing comes between a symbol and the root. -/
theorem ancestors_eq (wf : t.WellFormed) (h : Added t t' a) (hi : i < t.size) : t'.ancestors i = t.ancestors i := by
  induction i using Nat.strongRecOn with
  | ind i ih =>
    have hparent := h.parent_of_lt hi
    cases hp : t.parent? i with
    | none => rw [ancestors, ancestors, hparent, hp]
    | some p =>
      have hlt : p < i := (wf.parent_lt hp).1
      rw [wf.ancestors_of_parent hp, (wf.added h).ancestors_of_parent (hparent.trans hp),
        ih p hlt (Nat.lt_trans hlt hi)]

theorem fullName_eq (wf : t.WellFormed) (h : Added t t' a) (hi : i < t.size) : t'.fullName i = t.fullName i := by
  have hnames : (i :: t.ancestors i).reverse.map t'.name = (i :: t.ancestors i).reverse.map t.name := by
    refine List.map_congr_left fun j hj => h.name_of_lt ?_
    rcases List.mem_cons.mp (List.mem_reverse.mp hj) with rfl | hj
    · exact hi
    · exact Nat.lt_trans (wf.lt_of_mem_ancestors hj) hi
  rw [fullName, fullName, h.ancestors_eq wf hi, hnames]

theorem undisturbed (wf : t.WellFormed) (h : Added t t' a) : Undisturbed t t' a where
  name _ hi := h.name_of_lt hi
  kind i hi := by rw [h.kind, if_neg (Nat.ne_of_lt hi)]
  token i hi := by rw [h.token, if_neg (Nat.ne_of_lt hi)]
  parent _ hi := h.parent_of_lt hi
  ancestors _ hi := h.ancestors_eq wf hi
  fullName _ hi := h.fullName_eq wf hi
  children i _ hne := by rw [h.children, if_neg hne]
  child i n hold := by
    rw [h.child]
    refine if_neg ?_
    rintro ⟨rfl, hne, rfl⟩
    rcases hold with hsome | hp | hn
    · rw [h.free hne] at hsome
      cases hsome
    · exact hp rfl
    · exact hn rfl

theorem placed (h : Added t t' a) : Placed t t' a t.size where
  last := ⟨rfl, h.size⟩
  name := by rw [h.name, if_pos rfl]
  kind := by rw [h.kind, if_pos rfl]
  token := by rw [h.token, if_pos rfl]
  parent := by rw [h.parent, if_pos rfl]
  childless := by
    have hne : t.size ≠ a.parent := (Nat.ne_of_lt h.inTable).symm
    have hnew : t.get? t.size = none := get?_eq_none_iff.mpr (Nat.le_refl _)
    refine ⟨?_, fun n => ?_⟩
    · rw [h.children, if_neg hne]
      simp [SymbolTable.children, hnew]
    · rw [h.child, if_neg fun hc => hne hc.1]
      simp [child?, hnew]
  siblings := by rw [h.children, if_pos rfl]
  found hne := by rw [h.child, if_pos ⟨rfl, hne, rfl⟩]

end Added

/-- Adding a symbol is atomic. It is refused just if there is no such parent, or if the name is not empty and the parent
    has a child of that name, and otherwise fails only when all numbers are taken; a table in which it failed is as it
    was. When it succeeds the symbol stands where it was asked for, and everything else is as before. The table that is
    left is again one that was grown by additions. -/
theorem addition_is_atomic (rootToken : TokenId) (additions : List Addition) (a : Addition) :
    let t := grown rootToken additions
    let r : Except AddError SymbolId × SymbolTable := addInPlace a.parent a.name a.kind a.token t
    (r.1 = .error (.noParent a.parent) ↔ t.size ≤ a.parent) ∧
    (r.1 = .error (.duplicate (t.fullName a.parent) a.name) ↔
      a.parent < t.size ∧ a.name ≠ "" ∧ (t.child? a.parent a.name).isSome) ∧
    (r.1 = .error (.full ⟨⟩) ↔ ¬Refused t a ∧ positionLimit ≤ t.size) ∧
    ((∃ id, r.1 = .ok id) ↔ ¬Refused t a ∧ t.size < positionLimit) ∧
    (∀ e, r.1 = .error e → r.2 = t) ∧
    (∀ id, r.1 = .ok id → Placed t r.2 a id ∧ Undisturbed t r.2 a) ∧
    r.2 = grown rootToken (additions ++ [a]) := by
  intro t r
  have wf : t.WellFormed := WellFormed.grown rootToken additions
  have htable : r.2 = grown rootToken (additions ++ [a]) := by
    rw [grown, List.foldl_concat]
    exact congrArg Prod.snd (addInPlace_apply t a)
  rcases addInPlace_cases t a with
    ⟨habsent, hr⟩ | ⟨hlt, htaken, hr⟩ | ⟨hfree, hfull, hr⟩ | ⟨hfree, hroom, t', hadded, hr⟩
  · have hrefused : Refused t a := Or.inl habsent
    have hr : r = (.error (.noParent a.parent), t) := hr
    simp [hr, habsent, hrefused, Nat.not_lt.mpr habsent, ← htable]
  · have hrefused : Refused t a := Or.inr htaken
    have hr : r = (.error (.duplicate (t.fullName a.parent) a.name), t) := hr
    simp [hr, hlt, htaken, hrefused, ← htable]
  · have hr : r = (.error (.full ⟨⟩), t) := hr
    obtain ⟨hlt, htaken⟩ := not_or.mp hfree
    simp [hr, hlt, htaken, hfree, hfull, Nat.not_lt.mpr hfull, ← htable]
  · have hr : r = (.ok t.size, t') := hr
    obtain ⟨hlt, htaken⟩ := not_or.mp hfree
    simp [hr, hlt, htaken, hfree, hroom, ← htable, hadded.placed, hadded.undisturbed wf]

end SymbolTable
end Backend
