import Backend.Symbol.Table
import Mathlib.Data.List.Nodup

/-! The shape of a table. A table is grown from its root by additions, and one that is refused leaves it as it
    was. Parents have smaller numbers than their children, each symbol but the root stands once among the
    children of its parent and nowhere else, and a name finds the child that has it. -/

namespace Backend
namespace SymbolTable

/-! ### Growth -/

/-- What is given to add a symbol. -/
structure Addition where
  parent : SymbolId
  name : String
  kind : SymbolKind
  token : TokenId

/-- The table after an addition was tried. -/
def attempt (t : SymbolTable) (a : Addition) : SymbolTable :=
  match t.add a.parent a.name a.kind a.token with
  | .ok (_, t') => t'
  | .error _ => t

/-- The table after additions were tried one by one, the root being all there was. -/
def grown (rootToken : TokenId) (additions : List Addition) : SymbolTable :=
  additions.foldl attempt (new rootToken)

def kind? (t : SymbolTable) (id : SymbolId) : Option SymbolKind := (t.get? id).map (·.kind)

def token? (t : SymbolTable) (id : SymbolId) : Option TokenId := (t.get? id).map (·.token)

/-- What an addition that succeeds does to all that can be read from a table. -/
structure Added (t t' : SymbolTable) (a : Addition) : Prop where
  inTable : a.parent < t.size
  free : a.name ≠ "" → t.child? a.parent a.name = none
  size : t'.size = t.size + 1
  name : ∀ i, t'.name i = if i = t.size then a.name else t.name i
  kind : ∀ i, t'.kind? i = if i = t.size then some a.kind else t.kind? i
  token : ∀ i, t'.token? i = if i = t.size then some a.token else t.token? i
  parent : ∀ i, t'.parent? i = if i = t.size then some a.parent else t.parent? i
  children : ∀ i, t'.children i = if i = a.parent then t.children i ++ [t.size] else t.children i
  child : ∀ i n, t'.child? i n =
    if i = a.parent ∧ a.name ≠ "" ∧ n = a.name then some t.size else t.child? i n

section
variable {t t' : SymbolTable} {a : Addition} {id : SymbolId}

theorem get?_eq_none_iff {i : SymbolId} : t.get? i = none ↔ t.size ≤ i := Indexed.get?_eq_none_iff

theorem get?_isSome_iff {i : SymbolId} : (∃ s, t.get? i = some s) ↔ i < t.size := by
  rw [← Option.isSome_iff_exists, ← Nat.not_le, ← get?_eq_none_iff, Option.isSome_iff_ne_none]

/-- The symbols after an addition: the new one, its parent with one more child, and all others as before. -/
theorem add_eq_ok (h : t.add a.parent a.name a.kind a.token = .ok (id, t')) :
    id = t.size ∧ ∃ scope, t.get? a.parent = some scope ∧ (a.name ≠ "" → scope.named.get? a.name = none) ∧
      t'.size = t.size + 1 ∧ ∀ i, t'.get? i =
        if i = t.size then some (.leaf a.name a.kind a.token (some a.parent))
        else if i = a.parent then some (scope.addChild a.name t.size) else t.get? i := by
  unfold add at h
  cases hs : t.get? a.parent with
  | none => simp [hs] at h
  | some scope =>
    have hlt : a.parent < t.size := get?_isSome_iff.mp ⟨scope, hs⟩
    simp only [hs] at h
    split at h
    · cases h
    · rename_i hfree
      split at h
      · cases h
      · rename_i i symbols hpush
        obtain ⟨-, rfl, rfl⟩ := Indexed.push_eq_ok.mp hpush
        cases h
        refine ⟨rfl, scope, rfl, fun hne => ?_, ?_, fun i => ?_⟩
        · simpa [hne] using hfree
        · simp [SymbolTable.size, Indexed.size, Indexed.modify]
        · show Indexed.get? (Indexed.modify _ _ _) i = _
          rw [Indexed.get?_modify, Indexed.get?_pushed]
          by_cases hi : i = t.size
          · subst hi
            rw [if_neg (Nat.ne_of_lt hlt), if_pos rfl]
            exact if_pos rfl
          · rw [if_neg hi, if_neg (show ¬i = t.symbols.size from hi)]
            by_cases hp : i = a.parent
            · subst hp
              rw [if_pos rfl, if_pos rfl, show t.symbols.get? a.parent = some scope from hs]
              rfl
            · rw [if_neg (Ne.symm hp), if_neg hp]
              rfl

/-- What a new child does not change in its parent is changed in no symbol. -/
theorem map_get?_of_add {β : Type} {g : Symbol → β} (h : t.add a.parent a.name a.kind a.token = .ok (id, t'))
    (hg : ∀ s name child, g (Symbol.addChild s name child) = g s) (i : SymbolId) :
    (t'.get? i).map g =
      if i = t.size then some (g (.leaf a.name a.kind a.token (some a.parent))) else (t.get? i).map g := by
  obtain ⟨-, scope, hs, -, -, hget⟩ := add_eq_ok h
  rw [hget]
  split
  · rfl
  · split
    · rename_i hp
      rw [hp, hs, Option.map_some, Option.map_some, hg]
    · rfl

theorem Added.of_add (h : t.add a.parent a.name a.kind a.token = .ok (id, t')) : Added t t' a := by
  obtain ⟨-, scope, hs, hfree, hsize, hget⟩ := add_eq_ok h
  have hlt : a.parent < t.size := get?_isSome_iff.mp ⟨scope, hs⟩
  have hnew : t.get? t.size = none := get?_eq_none_iff.mpr (Nat.le_refl _)
  have hne : a.parent ≠ t.size := Nat.ne_of_lt hlt
  refine ⟨hlt, fun h => by simp [child?, hs, hfree h], hsize, fun i => ?_, map_get?_of_add h fun _ _ _ => rfl,
    map_get?_of_add h fun _ _ _ => rfl, fun i => ?_, fun i => ?_, fun i n => ?_⟩
  · rw [SymbolTable.name, map_get?_of_add h fun _ _ _ => rfl]
    split <;> rfl
  · have hparent : ∀ o : Option Symbol, o.bind (·.parent) = (o.map (·.parent)).join := fun o => by cases o <;> rfl
    rw [parent?, hparent, map_get?_of_add h fun _ _ _ => rfl]
    split
    · rfl
    · exact (hparent _).symm
  -- The children differ at the parent; the new symbol has none, as if it were not there.
  · by_cases hi : i = t.size
    · simp [SymbolTable.children, hget, hi, hne.symm, hnew, Symbol.leaf]
    · by_cases hp : i = a.parent
      · simp [SymbolTable.children, hget, hp, hne, hs, Symbol.addChild]
      · simp [SymbolTable.children, hget, hi, hp]
  · by_cases hi : i = t.size
    · simp [child?, hget, hi, hne.symm, hnew, Symbol.leaf, Catalog.get?_empty]
    · by_cases hp : i = a.parent
      · by_cases hname : a.name = ""
        · simp [child?, hget, hp, hne, hs, Symbol.addChild, hname]
        · simp [child?, hget, hp, hne, hs, Symbol.addChild, hname, Catalog.get?_insert]
      · simp [child?, hget, hi, hp]

end

/-! ### Well-formed tables -/

/-- The links of a table agree with each other. -/
structure WellFormed (t : SymbolTable) : Prop where
  root_lt : root < t.size
  root_name : t.name root = ""
  root_kind : t.kind? root = some .nameSpace
  root_parent : t.parent? root = none
  parent : ∀ i < t.size, i ≠ root → ∃ p < i, t.parent? i = some p ∧ i ∈ t.children p
  child : ∀ p, ∀ c ∈ t.children p, t.parent? c = some p
  ascending : ∀ p, (t.children p).Pairwise (· < ·)
  named : ∀ p n i, t.child? p n = some i ↔ n ≠ "" ∧ i ∈ t.children p ∧ t.name i = n

theorem lt_size_of_parent? {t : SymbolTable} {i p : SymbolId} (h : t.parent? i = some p) : i < t.size := by
  obtain ⟨s, hs, -⟩ := Option.bind_eq_some_iff.mp h
  exact get?_isSome_iff.mp ⟨s, hs⟩

namespace WellFormed
variable {t t' : SymbolTable} {a : Addition} {i p c : SymbolId}

theorem parent_lt (wf : t.WellFormed) (h : t.parent? i = some p) : p < i ∧ i ∈ t.children p := by
  have hne : i ≠ root := fun hi => by
    rw [hi, wf.root_parent] at h
    cases h
  obtain ⟨q, hlt, hq, hmem⟩ := wf.parent i (lt_size_of_parent? h) hne
  cases h.symm.trans hq
  exact ⟨hlt, hmem⟩

theorem mem_children_iff (wf : t.WellFormed) : c ∈ t.children p ↔ t.parent? c = some p :=
  ⟨wf.child p c, fun h => (wf.parent_lt h).2⟩

theorem lt_of_mem_children (wf : t.WellFormed) (h : c ∈ t.children p) : p < c ∧ c < t.size :=
  ⟨(wf.parent_lt (wf.child p c h)).1, lt_size_of_parent? (wf.child p c h)⟩

theorem new (rootToken : TokenId) : (new rootToken).WellFormed where
  root_lt := Nat.one_pos
  root_name := rfl
  root_kind := rfl
  root_parent := rfl
  parent := fun i hi hne => absurd (Nat.lt_one_iff.mp hi) hne
  child := fun p c hc => by
    cases p with
    | zero => cases hc
    | succ p => cases hc
  ascending := fun p => by
    cases p with
    | zero => exact List.Pairwise.nil
    | succ p => exact List.Pairwise.nil
  named := fun p n i => by
    cases p with
    | zero => simp [child?, SymbolTable.children, SymbolTable.get?, SymbolTable.new, Indexed.get?, Indexed.ofList,
        Symbol.leaf, Catalog.get?_empty]
    | succ p => simp [child?, SymbolTable.children, SymbolTable.get?, SymbolTable.new, Indexed.get?, Indexed.ofList]

/-- An addition keeps a table well formed: the new symbol is the last of all, so it is the last of its parent's
    children too, and its name was free. -/
theorem added (wf : t.WellFormed) (h : Added t t' a) : t'.WellFormed where
  root_lt := by
    rw [h.size]
    exact Nat.succ_pos _
  root_name := by rw [h.name, if_neg (Nat.ne_of_lt wf.root_lt), wf.root_name]
  root_kind := by rw [h.kind, if_neg (Nat.ne_of_lt wf.root_lt), wf.root_kind]
  root_parent := by rw [h.parent, if_neg (Nat.ne_of_lt wf.root_lt), wf.root_parent]
  parent := fun i hi hne => by
    rw [h.parent]
    by_cases hnew : i = t.size
    · refine ⟨a.parent, hnew ▸ h.inTable, if_pos hnew, ?_⟩
      simp [h.children, hnew]
    · rw [h.size] at hi
      obtain ⟨p, hlt, hp, hmem⟩ := wf.parent i (by omega) hne
      refine ⟨p, hlt, (if_neg hnew).trans hp, ?_⟩
      rw [h.children]
      split
      · exact List.mem_append_left _ hmem
      · exact hmem
  child := fun p c hc => by
    rw [h.children] at hc
    rw [h.parent]
    have old : c ∈ t.children p → (if c = t.size then some a.parent else t.parent? c) = some p := fun hc => by
      rw [if_neg (Nat.ne_of_lt (wf.lt_of_mem_children hc).2), wf.child p c hc]
    split at hc
    · rename_i hp
      rcases List.mem_append.mp hc with hc | hc
      · exact old hc
      · rw [if_pos (List.mem_singleton.mp hc), hp]
    · exact old hc
  ascending := fun p => by
    rw [h.children]
    split
    · refine List.pairwise_append.mpr ⟨wf.ascending p, List.pairwise_singleton _ _, fun c hc d hd => ?_⟩
      rw [List.mem_singleton.mp hd]
      exact (wf.lt_of_mem_children hc).2
    · exact wf.ascending p
  named := fun p n i => by
    have old : i ∈ t.children p → t'.name i = t.name i := fun hi => by
      rw [h.name, if_neg (Nat.ne_of_lt (wf.lt_of_mem_children hi).2)]
    have new : t'.name t.size = a.name := by rw [h.name, if_pos rfl]
    rw [h.child, h.children]
    by_cases hp : p = a.parent
    · rw [if_pos hp, List.mem_append, List.mem_singleton]
      by_cases hn : a.name ≠ "" ∧ n = a.name
      · -- The name is the new symbol's, and no other child has it.
        obtain ⟨hne, rfl⟩ := hn
        rw [if_pos ⟨hp, hne, rfl⟩]
        constructor
        · intro hi
          cases hi
          exact ⟨hne, Or.inr rfl, new⟩
        · rintro ⟨-, hi | rfl, hname⟩
          · have := (wf.named p a.name i).mpr ⟨hne, hi, (old hi).symm.trans hname⟩
            rw [hp, h.free hne] at this
            cases this
          · rfl
      · rw [if_neg fun hc => hn hc.2, wf.named]
        constructor
        · rintro ⟨hne, hi, hname⟩
          exact ⟨hne, Or.inl hi, (old hi).trans hname⟩
        · rintro ⟨hne, hi | rfl, hname⟩
          · exact ⟨hne, hi, (old hi).symm.trans hname⟩
          · rw [new] at hname
            exact absurd ⟨hname ▸ hne, hname.symm⟩ hn
    · rw [if_neg fun hc => hp hc.1, if_neg hp, wf.named]
      exact and_congr_right fun _ => and_congr_right fun hi => by rw [old hi]

theorem attempt (wf : t.WellFormed) (a : Addition) : (t.attempt a).WellFormed := by
  unfold SymbolTable.attempt
  split
  · rename_i id t' h
    exact wf.added (Added.of_add h)
  · exact wf

theorem grown (rootToken : TokenId) (additions : List Addition) : (grown rootToken additions).WellFormed :=
  List.foldlRecOn additions SymbolTable.attempt (WellFormed.new rootToken) fun _ wf a _ => wf.attempt a

/-- Names other than the empty one are distinct among the children of one symbol. -/
theorem eq_of_name_eq (wf : t.WellFormed) {d : SymbolId} (hc : c ∈ t.children p) (hd : d ∈ t.children p)
    (hname : t.name c = t.name d) (hne : t.name c ≠ "") : c = d := by
  have hfind : t.child? p (t.name c) = some c := (wf.named p (t.name c) c).mpr ⟨hne, hc, rfl⟩
  have hfind' : t.child? p (t.name c) = some d := (wf.named p (t.name c) d).mpr ⟨hne, hd, hname.symm⟩
  exact Option.some.inj (hfind.symm.trans hfind')

theorem child?_empty (wf : t.WellFormed) (p : SymbolId) : t.child? p "" = none := by
  rw [Option.eq_none_iff_forall_ne_some]
  intro i hi
  exact ((wf.named p "" i).mp hi).1 rfl

theorem count_children (wf : t.WellFormed) (h : t.parent? i = some p) : (t.children p).count i = 1 :=
  List.count_eq_one_of_mem ((wf.ascending p).imp Nat.ne_of_lt) (wf.parent_lt h).2

end WellFormed

/-- However a table was grown, its links agree: the root alone has no parent, and is an anonymous namespace; any
    other symbol has a parent with a smaller number and stands once among the children of that symbol and of no
    other; children ascend; and a name finds a child just if it is not empty and the child has it, so names are
    distinct and the empty name finds nothing. -/
theorem grown_links_agree (rootToken : TokenId) (additions : List Addition) :
    let t := grown rootToken additions
    (root < t.size ∧ t.name root = "" ∧ t.kind? root = some .nameSpace) ∧
    (∀ i < t.size, t.parent? i = none ↔ i = root) ∧
    (∀ i < t.size, i ≠ root → ∃ p < i, t.parent? i = some p ∧ (t.children p).count i = 1 ∧
      ∀ q, q ≠ p → i ∉ t.children q) ∧
    (∀ p, (t.children p).Pairwise (· < ·) ∧ ∀ c ∈ t.children p, c < t.size ∧ t.parent? c = some p) ∧
    (∀ p n i, t.child? p n = some i ↔ n ≠ "" ∧ i ∈ t.children p ∧ t.name i = n) ∧
    (∀ p, ∀ c ∈ t.children p, ∀ d ∈ t.children p, t.name c = t.name d → t.name c ≠ "" → c = d) ∧
    ∀ p, t.child? p "" = none := by
  intro t
  have wf : t.WellFormed := WellFormed.grown rootToken additions
  refine ⟨⟨wf.root_lt, wf.root_name, wf.root_kind⟩, fun i hi => ⟨fun hnone => ?_, fun hroot => ?_⟩,
    fun i hi hne => ?_, fun p => ⟨wf.ascending p, fun c hc => ?_⟩, wf.named,
    fun p c hc d hd => wf.eq_of_name_eq hc hd, wf.child?_empty⟩
  · by_contra hne
    obtain ⟨p, -, hp, -⟩ := wf.parent i hi hne
    rw [hnone] at hp
    cases hp
  · rw [hroot, wf.root_parent]
  · obtain ⟨p, hlt, hp, -⟩ := wf.parent i hi hne
    refine ⟨p, hlt, hp, wf.count_children hp, fun q hq hmem => hq ?_⟩
    exact Option.some.inj ((wf.child q i hmem).symm.trans hp)
  · exact ⟨(wf.lt_of_mem_children hc).2, wf.child p c hc⟩

end SymbolTable
end Backend
