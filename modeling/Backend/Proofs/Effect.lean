/-! Steps that change a state and may fail. A step after one that failed is not taken, and the state is left as the
    failed one left it. -/

namespace Backend

theorem bind_apply {σ ε α β : Type} (p : ExceptT ε (StateM σ) α) (q : α → ExceptT ε (StateM σ) β) (s : σ) :
    (p >>= q) s = match p s with
      | (.ok a, s') => q a s'
      | (.error e, s') => (.error e, s') := by
  show (match p s with | (outcome, s') => ExceptT.bindCont q outcome s') = _
  obtain ⟨e | a, s'⟩ := p s
  · rfl
  · rfl

end Backend
