import Backend.Proofs.Symbol.Scopes
import Backend.Symbol.Traversal
import Mathlib.Data.List.Nodup

/-! The visiting order. The walk with a stack visits a symbol and then, child by child, all that is declared
    inside it. So it comes to every symbol of a well-formed table, and to each once, and it ends by itself: the
    bound on its steps is never what stops it. -/

namespace Backend
namespace SymbolTable
open Relation

/-! ### Pre-order -/

section
variable {t : SymbolTable} {p c i j : SymbolId}

/-- A symbol and all declared inside it: each before its children, and children in the order they were added. -/
def preorder (t : SymbolTable) (i : SymbolId) : List SymbolId :=
  i :: (t.children i).flatMap fun c => if _h : i < c ∧ c < t.size then preorder t c else []
termination_by t.size - i
decreasing_by exact Nat.sub_lt_sub_left (Nat.lt_trans _h.1 _h.2) _h.1

theorem WellFormed.preorder_eq (wf : t.WellFormed) (i : SymbolId) :
    t.preorder i = i :: (t.children i).flatMap t.preorder := by
  rw [preorder]
  congr 1
  simp only [List.flatMap]
  congr 1
  exact List.map_congr_left fun c hc => dif_pos (wf.lt_of_mem_children hc)

/-- In `n` steps the walk visits the first `n` of the symbols before it, each with all that is inside it. -/
theorem WellFormed.walk_eq_take (wf : t.WellFormed) (n : Nat) (stack : List SymbolId) :
    t.walk n stack = (stack.flatMap t.preorder).take n := by
  induction n generalizing stack with
  | zero => rfl
  | succ n ih =>
    cases stack with
    | nil => rfl
    | cons i stack =>
      rw [walk, ih, List.flatMap_append, List.flatMap_cons, wf.preorder_eq i, List.cons_append, List.take_succ_cons]

/-- An induction that comes to a symbol after all its children. -/
theorem WellFormed.child_induction (wf : t.WellFormed) {P : SymbolId → Prop}
    (step : ∀ i, (∀ c ∈ t.children i, P c) → P i) (i : SymbolId) : P i := by
  induction hn : t.size - i using Nat.strongRecOn generalizing i with
  | ind n ih =>
    refine step i fun c hc => ih (t.size - c) ?_ c rfl
    obtain ⟨hic, hc⟩ := wf.lt_of_mem_children hc
    rw [← hn]
    exact Nat.sub_lt_sub_left (Nat.lt_trans hic hc) hic

theorem WellFormed.mem_preorder_self (wf : t.WellFormed) (i : SymbolId) : i ∈ t.preorder i := by
  rw [wf.preorder_eq]
  exact List.mem_cons_self

theorem WellFormed.mem_preorder_cases (wf : t.WellFormed) :
    j ∈ t.preorder i ↔ j = i ∨ ∃ c ∈ t.children i, j ∈ t.preorder c := by
  rw [wf.preorder_eq, List.mem_cons, List.mem_flatMap]

/-- With a symbol its children are visited. -/
theorem WellFormed.child_mem_preorder (wf : t.WellFormed) (h : p ∈ t.preorder i) (hc : c ∈ t.children p) :
    c ∈ t.preorder i := by
  induction i using wf.child_induction with
  | step i ih =>
    refine wf.mem_preorder_cases.mpr (Or.inr ?_)
    rcases wf.mem_preorder_cases.mp h with rfl | ⟨d, hd, hp⟩
    · exact ⟨c, hc, wf.mem_preorder_self c⟩
    · exact ⟨d, hd, ih d hd hp⟩

/-- What is visited with a symbol is the symbol and what it encloses. -/
theorem WellFormed.mem_preorder (wf : t.WellFormed) : j ∈ t.preorder i ↔ ReflTransGen t.InScope j i := by
  constructor
  · intro h
    induction i using wf.child_induction with
    | step i ih =>
      rcases wf.mem_preorder_cases.mp h with rfl | ⟨c, hc, hj⟩
      · exact ReflTransGen.refl
      · exact (ih c hc hj).tail (wf.child i c hc)
  · intro h
    induction h using ReflTransGen.head_induction_on with
    | refl => exact wf.mem_preorder_self i
    | head hp _ ih => exact wf.child_mem_preorder ih (wf.mem_children_iff.mpr hp)

/-- Two children of one symbol enclose nothing in common. -/
theorem WellFormed.siblings_disjoint (wf : t.WellFormed) {c d : SymbolId} (hc : c ∈ t.children p)
    (hd : d ∈ t.children p) (hne : c ≠ d) : (t.preorder c).Disjoint (t.preorder d) := by
  -- One of two scopes around a symbol is around the other, and then also around its parent `p`.
  have apart : ∀ {c d : SymbolId}, c ∈ t.children p → d ∈ t.children p → c ≠ d → ¬ReflTransGen t.InScope c d := by
    intro c d hc hd hne hcd
    rcases ReflTransGen.cases_head hcd with heq | ⟨q, hq, hqd⟩
    · exact hne heq
    · obtain rfl := t.inScope_rightUnique hq (wf.child p c hc)
      exact absurd (wf.le_of_scopes hqd) (Nat.not_le.mpr (wf.lt_of_mem_children hd).1)
  intro j hjc hjd
  rcases ReflTransGen.total_of_right_unique t.inScope_rightUnique (wf.mem_preorder.mp hjc)
    (wf.mem_preorder.mp hjd) with h | h
  · exact apart hc hd hne h
  · exact apart hd hc hne.symm h

theorem WellFormed.nodup_preorder (wf : t.WellFormed) (i : SymbolId) : (t.preorder i).Nodup := by
  induction i using wf.child_induction with
  | step i ih =>
    rw [wf.preorder_eq, List.nodup_cons, List.nodup_flatMap]
    refine ⟨fun h => ?_, ih, ?_⟩
    · obtain ⟨c, hc, hi⟩ := List.mem_flatMap.mp h
      exact absurd (wf.le_of_scopes (wf.mem_preorder.mp hi)) (Nat.not_le.mpr (wf.lt_of_mem_children hc).1)
    · exact (wf.ascending i).imp_of_mem fun hc hd hlt => wf.siblings_disjoint hc hd (Nat.ne_of_lt hlt)

end

/-! ### The whole table -/

section
variable {t : SymbolTable} {i : SymbolId}

theorem WellFormed.root_encloses (wf : t.WellFormed) (h : i < t.size) : ReflTransGen t.InScope i root := by
  induction i using Nat.strongRecOn with
  | ind i ih =>
    by_cases hi : i = root
    · rw [hi]
    · obtain ⟨p, hlt, hp, -⟩ := wf.parent i h hi
      exact (ih p hlt (Nat.lt_trans hlt h)).head hp

theorem WellFormed.mem_preorder_root (wf : t.WellFormed) : i ∈ t.preorder root ↔ i < t.size := by
  rw [wf.mem_preorder]
  refine ⟨fun h => ?_, wf.root_encloses⟩
  rcases ReflTransGen.cases_head h with rfl | ⟨p, hp, -⟩
  · exact wf.root_lt
  · exact lt_size_of_parent? hp

theorem WellFormed.preorder_root_perm (wf : t.WellFormed) : (t.preorder root).Perm (List.range t.size) :=
  (List.perm_ext_iff_of_nodup (wf.nodup_preorder root) List.nodup_range).mpr fun i => by
    rw [wf.mem_preorder_root, List.mem_range]

/-- The walk from the root is long enough to visit everything. -/
theorem WellFormed.visited_eq (wf : t.WellFormed) : t.visited = t.preorder root := by
  rw [visited, wf.walk_eq_take, List.flatMap_cons, List.flatMap_nil, List.append_nil]
  refine List.take_of_length_le (Nat.le_of_eq ?_)
  rw [wf.preorder_root_perm.length_eq, List.length_range]

theorem WellFormed.mem_visited (wf : t.WellFormed) : i ∈ t.visited ↔ i < t.size := by
  rw [wf.visited_eq, wf.mem_preorder_root]

theorem WellFormed.count_visited (wf : t.WellFormed) (i : SymbolId) :
    t.visited.count i = if i < t.size then 1 else 0 := by
  rw [wf.visited_eq, wf.preorder_root_perm.count_eq, List.nodup_range.count]
  simp only [List.mem_range]

end

/-! ### Parents first -/

section
variable {t : SymbolTable} {p c i : SymbolId}

theorem WellFormed.preorder_sublist (wf : t.WellFormed) (hc : c ∈ t.children i) :
    (t.preorder c).Sublist (t.preorder i) := by
  rw [wf.preorder_eq i]
  refine List.Sublist.cons i ?_
  obtain ⟨before, after, h⟩ := List.append_of_mem hc
  rw [h, List.flatMap_append, List.flatMap_cons]
  exact (List.sublist_append_left _ _).trans (List.sublist_append_right _ _)

/-- A symbol comes before its children in every list of all that is visited with it. -/
theorem WellFormed.parent_before (wf : t.WellFormed) (h : p ∈ t.preorder i) (hc : c ∈ t.children p) :
    [p, c].Sublist (t.preorder i) := by
  induction i using wf.child_induction with
  | step i ih =>
    rcases wf.mem_preorder_cases.mp h with rfl | ⟨d, hd, hp⟩
    · rw [wf.preorder_eq p]
      refine List.Sublist.cons_cons p (List.singleton_sublist.mpr ?_)
      exact List.mem_flatMap.mpr ⟨c, hc, wf.mem_preorder_self c⟩
    · exact (ih d hd hp).trans (wf.preorder_sublist hd)

end

/-! ### The walk to its end -/

/-- The walk with no bound on its steps, on a stack that grows at its end: it visits the list and then there is
    nothing left. The last symbol of the stack is visited next, and its children come in its place, the first of
    them last. -/
inductive WalksTo (t : SymbolTable) : List SymbolId → List SymbolId → Prop where
  | done : WalksTo t [] []
  | visit {stack later : List SymbolId} {id : SymbolId} (h : WalksTo t (stack ++ (t.children id).reverse) later) :
    WalksTo t (stack ++ [id]) (id :: later)

section
variable {t : SymbolTable} {stack l : List SymbolId}

/-- What is still to come after a visit is what was to come, less the symbol visited. -/
theorem WellFormed.pending_concat (wf : t.WellFormed) (stack : List SymbolId) (id : SymbolId) :
    (stack ++ [id]).reverse.flatMap t.preorder =
      id :: (stack ++ (t.children id).reverse).reverse.flatMap t.preorder := by
  simp only [List.reverse_append, List.reverse_cons, List.reverse_nil, List.nil_append, List.flatMap_append,
    List.flatMap_cons, List.flatMap_nil, List.append_nil, List.reverse_reverse]
  rw [wf.preorder_eq id, List.cons_append]

theorem WellFormed.eq_of_walksTo (wf : t.WellFormed) (h : t.WalksTo stack l) :
    l = stack.reverse.flatMap t.preorder := by
  induction h with
  | done => rfl
  | visit _ ih => rw [wf.pending_concat, ← ih]

/-- The walk ends, whatever is on its stack: each step takes one symbol from those that are still to come. -/
theorem WellFormed.walksTo (wf : t.WellFormed) (stack : List SymbolId) :
    t.WalksTo stack (stack.reverse.flatMap t.preorder) := by
  induction hn : (stack.reverse.flatMap t.preorder).length using Nat.strongRecOn generalizing stack with
  | ind n ih =>
    rcases List.eq_nil_or_concat' stack with rfl | ⟨rest, id, rfl⟩
    · exact .done
    · have hless : ((rest ++ (t.children id).reverse).reverse.flatMap t.preorder).length < n := by
        rw [← hn, wf.pending_concat]
        exact Nat.lt_succ_self _
      rw [wf.pending_concat]
      exact .visit (ih _ hless _ rfl)

end

/-- Visiting all symbols of a table comes to its end, and there it has visited the recursive pre-order from the root.
    Each symbol of the table is visited once, nothing else is, and parents come before their children. -/
theorem visited_is_preorder (rootToken : TokenId) (additions : List Addition) :
    let t := grown rootToken additions
    (∀ l, t.WalksTo [root] l ↔ l = t.visited) ∧
    (∀ i, t.preorder i = i :: (t.children i).flatMap t.preorder) ∧ t.visited = t.preorder root ∧
    (∀ i, t.visited.count i = if i < t.size then 1 else 0) ∧
    ∀ i p, t.parent? i = some p → [p, i].Sublist t.visited := by
  intro t
  have wf : t.WellFormed := WellFormed.grown rootToken additions
  have hpending : [root].reverse.flatMap t.preorder = t.visited := by
    rw [wf.visited_eq, List.reverse_singleton, List.flatMap_cons, List.flatMap_nil, List.append_nil]
  refine ⟨fun l => ⟨fun hl => ?_, fun hl => ?_⟩, wf.preorder_eq, wf.visited_eq, wf.count_visited, fun i p hp => ?_⟩
  · rw [wf.eq_of_walksTo hl, hpending]
  · rw [hl, ← hpending]
    exact wf.walksTo [root]
  · have hmem : i ∈ t.children p := (wf.parent_lt hp).2
    have hvisited : p ∈ t.preorder root :=
      wf.mem_preorder_root.mpr (Nat.lt_trans (wf.parent_lt hp).1 (lt_size_of_parent? hp))
    rw [wf.visited_eq]
    exact wf.parent_before hvisited hmem

end SymbolTable
end Backend
