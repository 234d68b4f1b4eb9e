import Backend.Proofs.Symbol.Shape
import Mathlib.Logic.Relation

/-! The scopes around a symbol: its parent, the parent of that, and so on to the root. Numbers descend on the
    way, so it ends, and the list of ancestors has just these scopes. -/

namespace Backend
namespace SymbolTable
open Relation

/-- The symbol `c` is declared in `p`. -/
def InScope (t : SymbolTable) (c p : SymbolId) : Prop := t.parent? c = some p

/-- The scope `a` is around `d`: one comes to it from `d` by going to the parent, once or more often. -/
def Encloses (t : SymbolTable) (a d : SymbolId) : Prop := TransGen t.InScope d a

theorem inScope_rightUnique (t : SymbolTable) : Relator.RightUnique t.InScope := fun _ _ _ h₁ h₂ =>
  Option.some.inj (h₁.symm.trans h₂)

section
variable {t : SymbolTable} {a d p c : SymbolId}

theorem encloses_iff : t.Encloses a d ↔ ∃ p, t.parent? d = some p ∧ (p = a ∨ t.Encloses a p) := by
  constructor
  · intro h
    obtain ⟨p, hp, hpa⟩ := TransGen.head'_iff.mp h
    rcases reflTransGen_iff_eq_or_transGen.mp hpa with rfl | hpa
    · exact ⟨_, hp, Or.inl rfl⟩
    · exact ⟨p, hp, Or.inr hpa⟩
  · rintro ⟨p, hp, rfl | hpa⟩
    · exact TransGen.single hp
    · exact TransGen.head hp hpa

/-- What is around a symbol is its parent or around its parent. -/
theorem encloses_of_parent (hp : t.parent? d = some p) : t.Encloses a d ↔ p = a ∨ t.Encloses a p := by
  rw [encloses_iff]
  constructor
  · rintro ⟨q, hq, h⟩
    cases hp.symm.trans hq
    exact h
  · exact fun h => ⟨p, hp, h⟩

namespace WellFormed

theorem le_of_scopes (wf : t.WellFormed) (h : ReflTransGen t.InScope c p) : p ≤ c := by
  induction h with
  | refl => exact Nat.le_refl _
  | tail _ hq ih => exact Nat.le_trans (Nat.le_of_lt (wf.parent_lt hq).1) ih

theorem lt_of_encloses (wf : t.WellFormed) (h : t.Encloses a d) : a < d := by
  obtain ⟨p, hp, hpa⟩ := TransGen.head'_iff.mp h
  exact Nat.lt_of_le_of_lt (wf.le_of_scopes hpa) (wf.parent_lt hp).1

/-! ### The list of ancestors -/

theorem ancestors_of_parent (wf : t.WellFormed) (h : t.parent? d = some p) :
    t.ancestors d = p :: t.ancestors p := by
  rw [ancestors, h]
  exact if_pos (wf.parent_lt h).1

/-- The ancestors up to the first that fails a test are the scopes around a symbol that pass it, together with
    all scopes between. -/
theorem mem_takeWhile_ancestors (wf : t.WellFormed) (g : SymbolId → Bool) :
    a ∈ (t.ancestors d).takeWhile g ↔
      t.Encloses a d ∧ g a = true ∧ ∀ x, t.Encloses a x → t.Encloses x d → g x = true := by
  induction d using Nat.strongRecOn with
  | ind d ih =>
    cases hp : t.parent? d with
    | none =>
      have hnone : ¬t.Encloses a d := fun h => by
        obtain ⟨p, hp', -⟩ := encloses_iff.mp h
        rw [hp] at hp'
        cases hp'
      rw [ancestors, hp]
      simp [hnone]
    | some p =>
      rw [wf.ancestors_of_parent hp, List.takeWhile_cons]
      constructor
      · intro h
        split at h
        · rename_i hg
          rcases List.mem_cons.mp h with rfl | h
          · -- Nothing is between a symbol and its parent.
            refine ⟨(encloses_of_parent hp).mpr (Or.inl rfl), hg, fun x hx hxd => ?_⟩
            rcases (encloses_of_parent hp).mp hxd with rfl | hxd
            · exact hg
            · exact absurd (wf.lt_of_encloses hx) (Nat.not_lt.mpr (Nat.le_of_lt (wf.lt_of_encloses hxd)))
          · obtain ⟨ha, hga, hbetween⟩ := (ih p (wf.parent_lt hp).1).mp h
            refine ⟨(encloses_of_parent hp).mpr (Or.inr ha), hga, fun x hx hxd => ?_⟩
            rcases (encloses_of_parent hp).mp hxd with rfl | hxd
            · exact hg
            · exact hbetween x hx hxd
        · cases h
      · rintro ⟨ha, hga, hbetween⟩
        have hpd : t.Encloses p d := (encloses_of_parent hp).mpr (Or.inl rfl)
        rcases (encloses_of_parent hp).mp ha with rfl | ha
        · rw [if_pos hga]
          exact List.mem_cons_self
        · rw [if_pos (hbetween p ha hpd)]
          refine List.mem_cons_of_mem _ ((ih p (wf.parent_lt hp).1).mpr ⟨ha, hga, fun x hx hxp => ?_⟩)
          exact hbetween x hx ((encloses_of_parent hp).mpr (Or.inr hxp))

end WellFormed
end

end SymbolTable
end Backend
