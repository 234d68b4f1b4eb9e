import Backend.Proofs.Symbol.Addition
import Backend.Proofs.Symbol.Diagnostics
import Mathlib.Data.List.Basic

/-! What an addition does to the visiting order. All that is inside a symbol is visited in one stretch, and a new child
    comes at the end of its parent's stretch. Stretches that do not have the parent in them stay as they are, and one
    that has it grows by the new symbol and is otherwise the same. So nothing that was there is moved, neither by one
    addition nor by any number of them. -/

namespace Backend
namespace SymbolTable
open Relation

/-! ### One stretch -/

namespace Added
variable {t t' : SymbolTable} {a : Addition} {i : SymbolId}

/-- What is visited with a symbol stays if the parent is not among it. -/
theorem preorder_apart (wf : t.WellFormed) (h : Added t t' a) (hp : a.parent ∉ t.preorder i) :
    t'.preorder i = t.preorder i := by
  induction i using wf.child_induction with
  | step i ih =>
    have hne : i ≠ a.parent := fun hi => hp (hi ▸ wf.mem_preorder_self i)
    rw [(wf.added h).preorder_eq, wf.preorder_eq, h.children, if_neg hne]
    congr 1
    refine List.flatMap_congr fun c hc => ih c hc fun hmem => hp ?_
    exact wf.mem_preorder_cases.mpr (Or.inr ⟨c, hc, hmem⟩)

theorem preorder_new (wf : t.WellFormed) (h : Added t t' a) : t'.preorder t.size = [t.size] := by
  rw [(wf.added h).preorder_eq, h.placed.childless.1]
  rfl

theorem preorder_parent (wf : t.WellFormed) (h : Added t t' a) :
    t'.preorder a.parent = t.preorder a.parent ++ [t.size] := by
  have hold : ∀ c ∈ t.children a.parent, t'.preorder c = t.preorder c := by
    intro c hc
    refine h.preorder_apart wf fun hmem => ?_
    have hle : c ≤ a.parent := wf.le_of_scopes (wf.mem_preorder.mp hmem)
    exact absurd hle (Nat.not_le.mpr (wf.lt_of_mem_children hc).1)
  rw [(wf.added h).preorder_eq, h.placed.siblings, List.flatMap_append, List.flatMap_congr hold, wf.preorder_eq,
    List.flatMap_singleton, h.preorder_new wf, List.cons_append]

/-- Where the parent is among what is visited with a symbol, its stretch is, and the new symbol comes behind it. -/
theorem preorder_around (wf : t.WellFormed) (h : Added t t' a) (hp : a.parent ∈ t.preorder i) :
    ∃ before after, t.preorder i = before ++ (t.preorder a.parent ++ after) ∧
      t'.preorder i = before ++ (t.preorder a.parent ++ t.size :: after) := by
  induction i using wf.child_induction with
  | step i ih =>
    rcases wf.mem_preorder_cases.mp hp with heq | ⟨c, hc, hp⟩
    · refine ⟨[], [], ?_, ?_⟩
      · simp [heq]
      · simpa [heq] using h.preorder_parent wf
    · obtain ⟨before, after, hold, hnew⟩ := ih c hc hp
      obtain ⟨left, right, hsplit⟩ := List.append_of_mem hc
      have hne : i ≠ a.parent := by
        have hle : c ≤ a.parent := wf.le_of_scopes (wf.mem_preorder.mp hp)
        exact Nat.ne_of_lt (Nat.lt_of_lt_of_le (wf.lt_of_mem_children hc).1 hle)
      -- The other children have nothing in common with the one around the parent.
      have hapart : ∀ d ∈ t.children i, d ≠ c → t'.preorder d = t.preorder d := fun d hd hdc =>
        h.preorder_apart wf fun hmem => wf.siblings_disjoint hd hc hdc hmem hp
      have hnodup : (left ++ c :: right).Nodup := hsplit ▸ (wf.ascending i).imp Nat.ne_of_lt
      rw [List.nodup_append, List.nodup_cons] at hnodup
      obtain ⟨-, ⟨hright, -⟩, hleft⟩ := hnodup
      have hleft : left.flatMap t'.preorder = left.flatMap t.preorder :=
        List.flatMap_congr fun d hd => hapart d (by simp [hsplit, hd]) (hleft d hd c List.mem_cons_self)
      have hright : right.flatMap t'.preorder = right.flatMap t.preorder :=
        List.flatMap_congr fun d hd => hapart d (by simp [hsplit, hd]) fun hdc => hright (hdc ▸ hd)
      refine ⟨i :: left.flatMap t.preorder ++ before, after ++ right.flatMap t.preorder, ?_, ?_⟩
      · rw [wf.preorder_eq, hsplit, List.flatMap_append, List.flatMap_cons, hold]
        simp
      · rw [(wf.added h).preorder_eq, h.children, if_neg hne, hsplit, List.flatMap_append, List.flatMap_cons, hleft,
          hright, hnew]
        simp

/-! ### The whole order -/

/-- The new symbol is visited right after the last of those that are visited with its parent. -/
theorem visited_around (wf : t.WellFormed) (h : Added t t' a) :
    ∃ before last after, t.visited = before ++ last :: after ∧ t'.visited = before ++ last :: t.size :: after ∧
      last ∈ t.preorder a.parent ∧ (∀ j ∈ after, j ∉ t.preorder a.parent) ∧
      (t.children a.parent = [] → last = a.parent) := by
  obtain ⟨before, after, hold, hnew⟩ := h.preorder_around wf (wf.mem_preorder_root.mpr h.inTable)
  obtain ⟨initial, last, hstretch⟩ : ∃ initial last, t.preorder a.parent = initial ++ [last] := by
    rcases List.eq_nil_or_concat' (t.preorder a.parent) with hnil | hconcat
    · exact absurd (wf.mem_preorder_self a.parent) (hnil ▸ List.not_mem_nil)
    · exact hconcat
  have hnodup := wf.nodup_preorder root
  rw [hold, ← List.append_assoc] at hnodup
  refine ⟨before ++ initial, last, after, ?_, ?_, by simp [hstretch], fun j hj hmem => ?_, fun hchildless => ?_⟩
  · rw [wf.visited_eq, hold, hstretch]
    simp
  · rw [(wf.added h).visited_eq, hnew, hstretch]
    simp
  · exact (List.nodup_append.mp hnodup).2.2 j (List.mem_append_right _ hmem) j hj rfl
  · have hlast : last ∈ t.preorder a.parent := by simp [hstretch]
    rw [wf.preorder_eq, hchildless] at hlast
    exact List.mem_singleton.mp hlast

end Added

/-! ### Any number of additions -/

/-- The table has come from another: the symbols of that one have their tokens, and are visited in the same order. -/
structure Continues (t₀ t : SymbolTable) : Prop where
  wellFormed : t.WellFormed
  size : t₀.size ≤ t.size
  token : ∀ i < t₀.size, t.token? i = t₀.token? i
  order : t.visited.filter (· < t₀.size) = t₀.visited

namespace Continues
variable {t₀ t : SymbolTable}

theorem refl (wf : t.WellFormed) : t.Continues t where
  wellFormed := wf
  size := Nat.le_refl _
  token _ _ := rfl
  order := List.filter_eq_self.mpr fun _ hi => decide_eq_true (wf.mem_visited.mp hi)

theorem attempt (h : t₀.Continues t) (a : Addition) : t₀.Continues (t.attempt a) := by
  unfold SymbolTable.attempt
  split
  · rename_i id t' hadd
    have hadded := Added.of_add hadd
    refine ⟨h.wellFormed.added hadded, ?_, fun i hi => ?_, ?_⟩
    · rw [hadded.size]
      exact Nat.le_succ_of_le h.size
    · rw [hadded.token, if_neg (Nat.ne_of_lt (Nat.lt_of_lt_of_le hi h.size)), h.token i hi]
    · obtain ⟨before, last, after, hold, hnew, -⟩ := hadded.visited_around h.wellFormed
      have hlate : ¬t.size < t₀.size := Nat.not_lt.mpr h.size
      rw [← h.order, hold, hnew]
      simp [List.filter_cons, hlate]
  · exact h

theorem foldl (h : t₀.Continues t) (additions : List Addition) :
    t₀.Continues (additions.foldl SymbolTable.attempt t) :=
  List.foldlRecOn additions SymbolTable.attempt h fun _ h a _ => h.attempt a

theorem errorAt?_eq (h : t₀.Continues t) (pool : TokenPool) {i : SymbolId} (hi : i < t₀.size) :
    Naming.errorAt? t pool i = Naming.errorAt? t₀ pool i := by
  have hread : ∀ o : Option Symbol, (o.bind fun s => pool.errorOf? s.token) = (o.map (·.token)).bind pool.errorOf? := by
    intro o
    cases o <;> rfl
  rw [Naming.errorAt?, Naming.errorAt?, hread, hread]
  exact congrArg (·.bind pool.errorOf?) (h.token i hi)

theorem diagnostics_eq (h : t₀.Continues t) (pool : TokenPool) (wf₀ : t₀.WellFormed) :
    (t.visited.filter (· < t₀.size)).filterMap (Naming.errorAt? t pool) = t₀.diagnostics pool := by
  rw [h.order]
  exact List.filterMap_congr fun i hi => h.errorAt?_eq pool (wf₀.mem_visited.mp hi)

end Continues

/-- The symbol `j` is `p` or inside it. -/
def Within (t : SymbolTable) (p j : SymbolId) : Prop := j = p ∨ t.Encloses p j

theorem WellFormed.within_iff {t : SymbolTable} (wf : t.WellFormed) {p j : SymbolId} :
    t.Within p j ↔ j ∈ t.preorder p := by
  rw [wf.mem_preorder, reflTransGen_iff_eq_or_transGen, Within, eq_comm]
  rfl

/-- An addition puts one symbol into the visiting order, right after the last one within its parent, which is the parent
    itself if it had no children, and moves nothing. Whatever is added later, the symbols of a table are visited in the
    order they had, and so are the errors of their tokens reported. -/
theorem addition_inserts_at_one_place (rootToken : TokenId) (additions : List Addition) :
    let t := grown rootToken additions
    (∀ (a : Addition) (id : SymbolId) (t' : SymbolTable),
      addInPlace a.parent a.name a.kind a.token t = (.ok id, t') →
      ∃ before last after, t.visited = before ++ last :: after ∧ t'.visited = before ++ last :: id :: after ∧
        t.Within a.parent last ∧ (∀ j ∈ after, ¬t.Within a.parent j) ∧
        (t.children a.parent = [] → last = a.parent)) ∧
    ∀ further : List Addition,
      let t' := grown rootToken (additions ++ further)
      t'.visited.filter (· < t.size) = t.visited ∧
      ∀ pool : TokenPool,
        (t'.visited.filter (· < t.size)).filterMap (Naming.errorAt? t' pool) = t.diagnostics pool ∧
        (t.diagnostics pool).Sublist (t'.diagnostics pool) := by
  intro t
  have wf : t.WellFormed := WellFormed.grown rootToken additions
  refine ⟨fun a id t' h => ?_, fun further => ?_⟩
  · obtain ⟨rfl, hadded⟩ := Added.of_addInPlace h
    simpa only [wf.within_iff] using hadded.visited_around wf
  · intro t'
    have hcontinues : t.Continues t' := by
      have heq : t' = further.foldl attempt t := List.foldl_append
      exact heq ▸ (Continues.refl wf).foldl further
    refine ⟨hcontinues.order, fun pool => ⟨hcontinues.diagnostics_eq pool wf, ?_⟩⟩
    rw [← hcontinues.diagnostics_eq pool wf]
    exact List.filter_sublist.filterMap _

theorem inner_addition_inserts :
    let t := grown 0 [⟨0, "Map", .type, 1⟩, ⟨1, "Put", .method, 2⟩, ⟨0, "Set", .type, 3⟩]
    let r : Except AddError SymbolId × SymbolTable := addInPlace 1 "Size" .field 4 t
    r.1 = .ok 4 ∧ ∃ before last after, t.visited = before ++ last :: after ∧
      r.2.visited = before ++ last :: 4 :: after ∧ t.Within 1 last ∧ (∀ j ∈ after, ¬t.Within 1 j) ∧
      (t.children 1 = [] → last = 1) := by
  intro t r
  have hadded : r.1 = .ok 4 := by decide +kernel
  exact ⟨hadded, (addition_inserts_at_one_place 0 _).1 ⟨1, "Size", .field, 4⟩ 4 r.2 (Prod.ext hadded rfl)⟩

-- What is put in comes behind the method of the type and before the type that follows.
example :
    let t := grown 0 [⟨0, "Map", .type, 1⟩, ⟨1, "Put", .method, 2⟩, ⟨0, "Set", .type, 3⟩]
    t.visited = [0, 1, 2, 3] ∧ (t.attempt ⟨1, "Size", .field, 4⟩).visited = [0, 1, 2, 4, 3] := by
  decide +kernel

end SymbolTable
end Backend
