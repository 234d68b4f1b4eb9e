import Backend.Proofs.Symbol.Reverification

/-! What is reported after verification. If every symbol has a token of its own and no token was faulty before, a token
    is faulty afterwards just if its symbol breaks a rule. So the errors collected on a walk through the table are one
    for each symbol that breaks a rule, in visiting order, and a further verification finds nothing to add. -/

namespace Backend
namespace Naming
open SymbolTable

/-- No two symbols hold one token, and no symbol's token is faulty. -/
structure Untouched (t : SymbolTable) (pool : TokenPool) : Prop where
  apart : ∀ id, HeldOnce t id
  clean : ∀ i s, t.get? i = some s → ∃ token, pool.get? s.token = some token ∧ token.error = none

theorem untouched_iff {t : SymbolTable} {pool : TokenPool} :
    Untouched t pool ↔ (∀ i < t.size, ∀ j < t.size, t.token? i = t.token? j → i = j) ∧
      ∀ i < t.size, ∃ token ∈ (t.token? i).bind pool.get?, token.error.isNone := by
  constructor
  · rintro ⟨hapart, hclean⟩
    refine ⟨fun i hi j _ hij => ?_, fun i hi => ?_⟩
    · obtain ⟨s, hs⟩ := get?_isSome_iff.mpr hi
      have hid : t.token? i = some s.token := by simp [token?, hs]
      exact hapart s.token i j hid (hij ▸ hid)
    · obtain ⟨s, hs⟩ := get?_isSome_iff.mpr hi
      obtain ⟨token, htoken, hnone⟩ := hclean i s hs
      exact ⟨token, by simp [token?, hs, htoken], by simp [hnone]⟩
  · rintro ⟨hapart, hclean⟩
    refine ⟨fun id i j hi hj => ?_, fun i s hs => ?_⟩
    · obtain ⟨s, hs, -⟩ := Option.map_eq_some_iff.mp hi
      obtain ⟨s', hs', -⟩ := Option.map_eq_some_iff.mp hj
      exact hapart i (get?_isSome_iff.mp ⟨s, hs⟩) j (get?_isSome_iff.mp ⟨s', hs'⟩) (hi.trans hj.symm)
    · obtain ⟨token, htoken, hnone⟩ := hclean i (get?_isSome_iff.mp ⟨s, hs⟩)
      exact ⟨token, by simpa [token?, hs] using htoken, by simpa using hnone⟩

instance (t : SymbolTable) (pool : TokenPool) : Decidable (Untouched t pool) := decidable_of_iff _ untouched_iff.symm

def errorAt? (t : SymbolTable) (pool : TokenPool) (i : SymbolId) : Option Diagnostic :=
  (t.get? i).bind fun s => pool.errorOf? s.token

/-- The diagnostic is the error for the rule named to the symbol, at the place of the symbol's token. -/
def Reports (t : SymbolTable) (pool : TokenPool) (i : SymbolId) (d : Diagnostic) : Prop :=
  ∃ s token r, t.get? i = some s ∧ pool.get? s.token = some token ∧ Charged t s r ∧
    d = ⟨.error, token.location, r.message⟩

/-- The symbols are those that break a rule, in pre-order and each once, and the diagnostics are the reports about
    them, one for each. -/
structure ReportsAll (t : SymbolTable) (pool : TokenPool) (offenders : List SymbolId) (diagnostics : List Diagnostic) :
    Prop where
  inOrder : offenders.Sublist (t.preorder root)
  once : offenders.Nodup
  exact : ∀ i, i ∈ offenders ↔ ∃ s, t.get? i = some s ∧ (SameAsParent t s ∨ ShadowsParam t s)
  reports : List.Forall₂ (Reports t pool) offenders diagnostics

/-! ### One symbol -/

section
variable {t : SymbolTable} {pool : TokenPool} {i : SymbolId} {s : Symbol}

/-- All that is charged to a token with one holder is charged to this one. -/
theorem head?_charges_of_heldOnce (wf : t.WellFormed) (hs : t.get? i = some s) (honce : HeldOnce t s.token) (r : Rule) :
    (t.visited.flatMap (chargesOf t s.token)).head? = some r ↔ Charged t s r := by
  have holder : ∀ {j s'}, Offends t s.token j s' → s' = s := by
    rintro j s' ⟨hs', htoken, -⟩
    obtain rfl : j = i := honce j i (by simp [token?, hs', htoken]) (by simp [token?, hs])
    cases hs.symm.trans hs'
    rfl
  constructor
  · intro hr
    obtain ⟨j, s', ⟨hoffends, -⟩, hcharged⟩ := (head?_charges wf).mp hr
    obtain rfl := holder hoffends
    exact hcharged
  · intro hr
    have hsome : (t.visited.flatMap (chargesOf t s.token)).head?.isSome :=
      (head?_charges_isSome wf).mpr ⟨i, s, hs, rfl, exists_charged_iff.mp ⟨r, hr⟩⟩
    obtain ⟨r', hr'⟩ := Option.isSome_iff_exists.mp hsome
    obtain ⟨j, s', ⟨hoffends, -⟩, hcharged⟩ := (head?_charges wf).mp hr'
    obtain rfl := holder hoffends
    rw [hr', charged_unique hcharged hr]

/-- After verification the error of a symbol's token is the report about the symbol. -/
theorem errorAt?_verify (wf : t.WellFormed) (h : Untouched t pool) (d : Diagnostic) :
    errorAt? t (verify t pool).pool i = some d ↔ Reports t pool i d := by
  unfold errorAt?
  cases hs : t.get? i with
  | none => simp [Reports, hs]
  | some s =>
    obtain ⟨token, htoken, hclean⟩ := h.clean i s hs
    have herror : (verify t pool).pool.errorOf? s.token =
        (t.visited.flatMap (chargesOf t s.token)).head?.map (token.errorOf ·.message) := by
      rw [TokenPool.errorOf?, (verify_notes t pool).2, htoken, Option.map_some, Option.bind_some, error_noted_rules,
        hclean, Option.none_or]
    rw [Option.bind_some, herror, Option.map_eq_some_iff]
    simp only [head?_charges_of_heldOnce wf hs (h.apart s.token)]
    constructor
    · rintro ⟨r, hr, rfl⟩
      exact ⟨s, token, r, hs, htoken, hr, rfl⟩
    · rintro ⟨s', token', r, hs', htoken', hr, rfl⟩
      cases hs.symm.trans hs'
      cases htoken.symm.trans htoken'
      exact ⟨r, hr, rfl⟩

theorem exists_reports_iff (h : Untouched t pool) :
    (∃ d, Reports t pool i d) ↔ ∃ s, t.get? i = some s ∧ (SameAsParent t s ∨ ShadowsParam t s) := by
  constructor
  · rintro ⟨d, s, token, r, hs, -, hr, -⟩
    exact ⟨s, hs, exists_charged_iff.mp ⟨r, hr⟩⟩
  · rintro ⟨s, hs, hbreaks⟩
    obtain ⟨r, hr⟩ := exists_charged_iff.mpr hbreaks
    obtain ⟨token, htoken, -⟩ := h.clean i s hs
    exact ⟨_, s, token, r, hs, htoken, hr, rfl⟩

end

/-! ### Once more -/

/-- The second of two verifications changes no token, however tokens are shared. -/
theorem verify_again (t : SymbolTable) (pool : TokenPool) :
    (verify t (verify t pool).pool).pool = (verify t pool).pool := by
  refine TokenPool.ext_get? fun id => ?_
  rw [(verify_notes t (verify t pool).pool).2, (verify_notes t pool).2, Option.map_map]
  congr 1
  funext token
  exact Token.noted_again token _

section
variable (rootToken : TokenId) (pool : TokenPool)

theorem run_adds (additions : List Addition) :
    run rootToken pool (additions.map .add) = ⟨grown rootToken additions, pool, []⟩ := by
  have hadds : ∀ p : Progress, (additions.map Step.add).foldl Progress.next p =
      { p with table := additions.foldl attempt p.table } := by
    induction additions with
    | nil => exact fun p => rfl
    | cons a additions ih => exact fun p => ih _
  exact hadds _

/-- However often a table is verified, it is as if it had been verified once. -/
theorem run_verifications (additions : List Addition) (n : Nat) :
    let q := run rootToken pool (additions.map .add ++ List.replicate (n + 1) .verify)
    q.table = grown rootToken additions ∧ q.pool = (verify (grown rootToken additions) pool).pool := by
  induction n with
  | zero =>
    have hrun : run rootToken pool (additions.map .add ++ List.replicate 1 .verify) = _ := run_concat _ .verify
    rw [run_adds] at hrun
    rw [hrun]
    exact ⟨table_verify _, rfl⟩
  | succ n ih =>
    obtain ⟨htable, hpool⟩ := ih
    rw [List.replicate_succ', ← List.append_assoc, run_concat]
    refine ⟨(table_verify _).trans htable, ?_⟩
    show (verify (run rootToken pool _).table (run rootToken pool _).pool).pool = _
    rw [htable, hpool, verify_again]

end

/-! ### All symbols -/

theorem forall₂_filterMap {α β : Type} (f : α → Option β) (l : List α) :
    List.Forall₂ (fun a b => f a = some b) (l.filter fun a => (f a).isSome) (l.filterMap f) := by
  induction l with
  | nil => exact .nil
  | cons a l ih =>
    cases ha : f a with
    | none => rwa [List.filter_cons_of_neg (by simp [ha]), List.filterMap_cons_none ha]
    | some b =>
      rw [List.filter_cons_of_pos (by simp [ha]), List.filterMap_cons_some ha]
      exact .cons ha ih

/-- What verification leaves on the tokens, collected in visiting order, reports all that breaks the rules. -/
theorem reportsAll_verify {t : SymbolTable} {pool : TokenPool} (wf : t.WellFormed) (h : Untouched t pool) :
    ∃ offenders, ReportsAll t pool offenders (t.diagnostics (verify t pool).pool) := by
  have hdiagnostics : t.diagnostics (verify t pool).pool =
      (t.preorder root).filterMap (errorAt? t (verify t pool).pool) := by
    rw [← wf.visited_eq]
    rfl
  rw [hdiagnostics]
  have hreports := (forall₂_filterMap (errorAt? t (verify t pool).pool) (t.preorder root)).imp
    fun i d hd => (errorAt?_verify wf h d).mp hd
  refine ⟨_, List.filter_sublist, (wf.nodup_preorder root).sublist List.filter_sublist, fun i => ?_, hreports⟩
  rw [List.mem_filter, Option.isSome_iff_exists]
  simp only [errorAt?_verify wf h, exists_reports_iff h, wf.mem_preorder_root]
  refine and_iff_right_of_imp ?_
  rintro ⟨s, hs, -⟩
  exact get?_isSome_iff.mp ⟨s, hs⟩

/-- The errors reported after verification are the exact list of what breaks the rules. In a table whose symbols have
    tokens of their own, none of them faulty before, there is one error for each symbol that breaks a rule, in pre-order
    with the children of a symbol in the order they were added, each at the place of the symbol's token. The list is the
    same however often the table is verified. -/
theorem diagnostics_report_offenders (rootToken : TokenId) (additions : List Addition) (pool : TokenPool)
    (h : Untouched (grown rootToken additions) pool) :
    let t := grown rootToken additions
    (∀ i, t.preorder i = i :: (t.children i).flatMap t.preorder) ∧ (∀ p, (t.children p).Pairwise (· < ·)) ∧
    ∃ offenders diagnostics, ReportsAll t pool offenders diagnostics ∧
      ∀ n, let q := run rootToken pool (additions.map .add ++ List.replicate (n + 1) .verify)
        q.table.diagnostics q.pool = diagnostics := by
  intro t
  have wf : t.WellFormed := WellFormed.grown rootToken additions
  obtain ⟨offenders, hreports⟩ := reportsAll_verify wf h
  refine ⟨wf.preorder_eq, wf.ascending, offenders, _, hreports, fun n => ?_⟩
  obtain ⟨htable, hpool⟩ := run_verifications rootToken pool additions n
  show SymbolTable.diagnostics (run rootToken pool _).table (run rootToken pool _).pool = _
  rw [htable, hpool]

/-- A generic type with another in it and a method. The first parameter breaks both rules, and the last addition comes
    before the method in pre-order. -/
def outerType : List Addition :=
  [⟨0, "Outer", .type, 1⟩, ⟨1, "X", .typeParam, 2⟩, ⟨1, "In", .type, 3⟩, ⟨3, "X", .method, 4⟩,
    ⟨4, "X", .methodParam, 5⟩, ⟨1, "Get", .method, 6⟩, ⟨6, "X", .methodParam, 7⟩, ⟨3, "In", .field, 8⟩]

def outerTokens : TokenPool :=
  ⟨#[.synthetic "", .synthetic "Outer", .synthetic "X", .synthetic "In", .synthetic "X",
    ⟨"X", some ⟨⟨"outer.sil", "fn X(X)"⟩, ⟨5, 6, by decide⟩⟩, none⟩, .synthetic "Get", .synthetic "X", .synthetic "In"]⟩

theorem outerType_diagnostics_report_offenders :
    Untouched (grown 0 outerType) outerTokens ∧
    ∃ offenders diagnostics, ReportsAll (grown 0 outerType) outerTokens offenders diagnostics ∧
      ∀ n, let q := run 0 outerTokens (outerType.map .add ++ List.replicate (n + 1) .verify)
        q.table.diagnostics q.pool = diagnostics := by
  have h : Untouched (grown 0 outerType) outerTokens := by decide +kernel
  exact ⟨h, (diagnostics_report_offenders 0 outerType outerTokens h).2.2⟩

example : ((grown 0 outerType).diagnostics (verify (grown 0 outerType) outerTokens).pool).map (·.summary) =
    ["outer.sil:5: Error: " ++ Rule.sameAsParent.message, "Error: " ++ Rule.sameAsParent.message,
      "Error: " ++ Rule.shadowsParam.message] := by
  decide +kernel

end Naming
end Backend
