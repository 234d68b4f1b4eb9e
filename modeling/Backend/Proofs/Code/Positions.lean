import Backend.Code.Function

/-! Positions of operations. A position says which operation to take, and which of those inside it, and so on
    inwards. In the order of lexicons an operation comes before all inside it, and these before the next one
    beside it, so this is the depth-first order, and the walk over the operations keeps it. The level of an operation is
    the length of its position. -/

namespace Backend
namespace Op

/-- The operation at a position in another; the empty position is the operation itself. -/
def sub? : Op → List Nat → Option Op
  | op, [] => some op
  | .scope body, i :: path => body[i]?.bind (sub? · path)
  | _, _ :: _ => none

/-- The operation at a position among those of a scope, at any depth. -/
def at? (ops : List Op) : List Nat → Option Op
  | [] => none
  | i :: path => ops[i]?.bind (sub? · path)

theorem sub?_scope (body : List Op) (i : Nat) (path : List Nat) :
    sub? (.scope body) (i :: path) = at? body (i :: path) := rfl

theorem at?_cons_zero (op : Op) (ops : List Op) (path : List Nat) : at? (op :: ops) (0 :: path) = sub? op path := by
  simp [at?]

theorem at?_cons_succ (op : Op) (ops : List Op) (i : Nat) (path : List Nat) :
    at? (op :: ops) ((i + 1) :: path) = at? ops (i :: path) := by
  simp [at?]

/-- All but scopes have nothing inside. -/
theorem eq_of_sub? {op o : Op} {path : List Nat} (h : sub? op path = some o) (hop : ∀ body, op ≠ .scope body) :
    path = [] ∧ o = op := by
  cases path with
  | nil =>
    cases op <;> exact ⟨rfl, (Option.some.inj h).symm⟩
  | cons i path =>
    cases op with
    | scope body => exact absurd rfl (hop body)
    | comment text | declare index token | ldlr index token | plain opcode operand => cases h

theorem sub?_nil (op : Op) : sub? op [] = some op := by
  cases op <;> rfl

/-! ### The walk with levels -/

mutual

/-- An operation at a level and all inside it, with their levels. -/
def walkLevels (level : Nat) : Op → List (Nat × Op)
  | .scope body => (level, .scope body) :: walkAllLevels level body
  | op => [(level, op)]

/-- All operations of a scope at a level, with their levels. -/
def walkAllLevels (level : Nat) : List Op → List (Nat × Op)
  | [] => []
  | op :: ops => walkLevels (level + 1) op ++ walkAllLevels level ops

end

mutual

theorem map_snd_walkLevels (level : Nat) (op : Op) : (walkLevels level op).map Prod.snd = walk op := by
  cases op with
  | scope body => rw [walkLevels, walk, List.map_cons, map_snd_walkAllLevels level body]
  | comment text | declare index token | ldlr index token | plain opcode operand => simp [walkLevels, walk]

theorem map_snd_walkAllLevels (level : Nat) (ops : List Op) : (walkAllLevels level ops).map Prod.snd = walkAll ops := by
  cases ops with
  | nil => simp [walkAllLevels, walkAll]
  | cons op ops =>
    rw [walkAllLevels, walkAll, List.map_append, map_snd_walkLevels (level + 1) op, map_snd_walkAllLevels level ops]

end

/-- The walk starts with the operation itself. -/
theorem walkLevels_eq_cons (level : Nat) (op : Op) : ∃ rest, walkLevels level op = (level, op) :: rest := by
  cases op <;> exact ⟨_, rfl⟩

section
variable {β : Type} {g : Nat × Op → Option β} {b : β}

mutual

/-- What the walk does not find is nowhere. -/
theorem none_of_walkLevels (level : Nat) (op : Op) (h : (walkLevels level op).findSome? g = none) {path : List Nat}
    {o : Op} (ho : sub? op path = some o) : g (level + path.length, o) = none := by
  cases op with
  | scope body =>
    rw [walkLevels, List.findSome?_cons] at h
    cases hg : g (level, .scope body) with
    | some b => simp [hg] at h
    | none =>
      rw [hg] at h
      cases path with
      | nil =>
        cases ho
        exact hg
      | cons i path =>
        rw [sub?_scope] at ho
        exact none_of_walkAllLevels level body h ho
  | comment text | declare index token | ldlr index token | plain opcode operand =>
    obtain ⟨rfl, rfl⟩ := eq_of_sub? ho (by simp)
    simpa [walkLevels] using h

theorem none_of_walkAllLevels (level : Nat) (ops : List Op) (h : (walkAllLevels level ops).findSome? g = none)
    {path : List Nat} {o : Op} (ho : at? ops path = some o) : g (level + path.length, o) = none := by
  cases ops with
  | nil => cases path <;> simp [at?] at ho
  | cons op ops =>
    rw [walkAllLevels, List.findSome?_append, Option.or_eq_none_iff] at h
    cases path with
    | nil => cases ho
    | cons i path =>
      cases i with
      | zero =>
        rw [at?_cons_zero] at ho
        rw [List.length_cons, Nat.add_comm path.length, ← Nat.add_assoc]
        exact none_of_walkLevels (level + 1) op h.1 ho
      | succ i =>
        rw [at?_cons_succ] at ho
        exact (none_of_walkAllLevels level ops h.2 ho :)

end

mutual

/-- What the walk finds stands at a position before which there is nothing to find. -/
theorem first_of_walkLevels (level : Nat) (op : Op) (h : (walkLevels level op).findSome? g = some b) :
    ∃ path o, sub? op path = some o ∧ g (level + path.length, o) = some b ∧
      ∀ q < path, ∀ o', sub? op q = some o' → g (level + q.length, o') = none := by
  cases op with
  | scope body =>
    rw [walkLevels, List.findSome?_cons] at h
    cases hg : g (level, .scope body) with
    | some b' =>
      rw [hg] at h
      cases h
      exact ⟨[], .scope body, rfl, hg, fun q hq => absurd hq (List.not_lt_nil q)⟩
    | none =>
      rw [hg] at h
      obtain ⟨path, o, ho, hgo, hbefore⟩ := first_of_walkAllLevels level body h
      cases path with
      | nil => cases ho
      | cons i path =>
        refine ⟨i :: path, o, ho, hgo, fun q hq o' ho' => ?_⟩
        cases q with
        | nil =>
          cases ho'
          exact hg
        | cons j q => exact hbefore (j :: q) hq o' ho'
  | comment text | declare index token | ldlr index token | plain opcode operand =>
    refine ⟨[], _, sub?_nil _, ?_, fun q hq => absurd hq (List.not_lt_nil q)⟩
    simpa [walkLevels] using h

theorem first_of_walkAllLevels (level : Nat) (ops : List Op) (h : (walkAllLevels level ops).findSome? g = some b) :
    ∃ path o, at? ops path = some o ∧ g (level + path.length, o) = some b ∧
      ∀ q < path, ∀ o', at? ops q = some o' → g (level + q.length, o') = none := by
  have hdeeper : ∀ (i : Nat) (path : List Nat), level + (i :: path).length = level + 1 + path.length := by
    intro i path
    rw [List.length_cons]
    omega
  cases ops with
  | nil => cases h
  | cons op ops =>
    rw [walkAllLevels, List.findSome?_append] at h
    cases hop : (walkLevels (level + 1) op).findSome? g with
    | some b' =>
      rw [hop] at h
      cases h
      obtain ⟨path, o, ho, hgo, hbefore⟩ := first_of_walkLevels (level + 1) op hop
      refine ⟨0 :: path, o, by rw [at?_cons_zero, ho], by rw [hdeeper, hgo], fun q hq o' ho' => ?_⟩
      cases q with
      | nil => cases ho'
      | cons j q =>
        rcases List.cons_lt_cons_iff.mp hq with hj | ⟨rfl, hlt⟩
        · exact absurd hj (Nat.not_lt_zero j)
        · rw [at?_cons_zero] at ho'
          rw [hdeeper]
          exact hbefore q hlt o' ho'
    | none =>
      rw [hop, Option.none_or] at h
      obtain ⟨path, o, ho, hgo, hbefore⟩ := first_of_walkAllLevels level ops h
      cases path with
      | nil => cases ho
      | cons i path =>
        refine ⟨(i + 1) :: path, o, by rw [at?_cons_succ, ho], hgo, fun q hq o' ho' => ?_⟩
        cases q with
        | nil => cases ho'
        | cons j q =>
          cases j with
          | zero =>
            rw [at?_cons_zero] at ho'
            rw [hdeeper]
            exact none_of_walkLevels (level + 1) op hop ho'
          | succ j =>
            rw [at?_cons_succ] at ho'
            refine hbefore (j :: q) ?_ o' ho'
            rcases List.cons_lt_cons_iff.mp hq with hj | ⟨hj, hlt⟩
            · exact List.cons_lt_cons_iff.mpr (Or.inl (Nat.lt_of_succ_lt_succ hj))
            · exact List.cons_lt_cons_iff.mpr (Or.inr ⟨Nat.succ.inj hj, hlt⟩)

end

/-- The walk comes to the operations at all positions and to no others. -/
theorem walkAllLevels_eq_none_iff {level : Nat} {ops : List Op} : (walkAllLevels level ops).findSome? g = none ↔
    ∀ path o, at? ops path = some o → g (level + path.length, o) = none := by
  refine ⟨fun h path o => none_of_walkAllLevels level ops h, fun h => ?_⟩
  cases hfirst : (walkAllLevels level ops).findSome? g with
  | none => rfl
  | some b =>
    obtain ⟨path, o, ho, hgo, -⟩ := first_of_walkAllLevels level ops hfirst
    exact hgo.symm.trans (h path o ho)

end

theorem forall_mem_walkAllLevels {P : Nat × Op → Prop} {level : Nat} {ops : List Op} :
    (∀ p ∈ walkAllLevels level ops, P p) ↔ ∀ path o, at? ops path = some o → P (level + path.length, o) := by
  classical
  have hnone : (∀ p ∈ walkAllLevels level ops, P p) ↔
      (walkAllLevels level ops).findSome? (fun p => if P p then none else some p) = none := by
    simp [List.findSome?_eq_none_iff]
  rw [hnone, walkAllLevels_eq_none_iff]
  simp

/-! ### The walk -/

section
variable {β : Type} {g : Op → Option β} {b : β} {ops : List Op}

theorem findSome?_walkAll (ops : List Op) :
    (walkAll ops).findSome? g = (walkAllLevels 0 ops).findSome? (g ∘ Prod.snd) := by
  rw [← map_snd_walkAllLevels 0 ops, List.findSome?_map]

theorem walkAll_eq_none_iff : (walkAll ops).findSome? g = none ↔ ∀ path o, at? ops path = some o → g o = none := by
  rw [findSome?_walkAll, walkAllLevels_eq_none_iff]
  rfl

theorem first_of_walkAll (h : (walkAll ops).findSome? g = some b) :
    ∃ path o, at? ops path = some o ∧ g o = some b ∧ ∀ q < path, ∀ o', at? ops q = some o' → g o' = none :=
  first_of_walkAllLevels 0 ops ((findSome?_walkAll ops).symm.trans h)

end

theorem forall_mem_walkAll {P : Op → Prop} {ops : List Op} :
    (∀ op ∈ walkAll ops, P op) ↔ ∀ path op, at? ops path = some op → P op := by
  rw [← map_snd_walkAllLevels 0 ops, List.forall_mem_map, forall_mem_walkAllLevels]

end Op
end Backend
