import Backend.Proofs.Source.Token
import Backend.Proofs.Symbol.Preorder
import Backend.Symbol.Naming

/-! Verification finds what breaks the naming rules, and nothing else. The rules are told from the tree: who is
    declared where, and which scopes are around. A token may be held by many symbols; it gets the message of
    the first of them, in visiting order, that breaks a rule, unless it was faulty before. -/

namespace Backend
namespace Naming
open SymbolTable

/-! ### The rules -/

/-- The scope has a name and is no namespace. -/
def Generic (t : SymbolTable) (id : SymbolId) : Prop :=
  ∃ s, t.get? id = some s ∧ s.name ≠ "" ∧ s.kind ≠ .nameSpace

/-- A symbol with a name has the name of the scope it is declared in. -/
def SameAsParent (t : SymbolTable) (s : Symbol) : Prop :=
  s.name ≠ "" ∧ ∃ p, s.parent = some p ∧ t.name p = s.name

/-- A parameter has the name of a type parameter of a scope around the one it is declared in, and these two and
    all scopes between them are generic. -/
def ShadowsParam (t : SymbolTable) (s : Symbol) : Prop :=
  s.name ≠ "" ∧ (s.kind = .typeParam ∨ s.kind = .methodParam) ∧
    ∃ d, s.parent = some d ∧ Generic t d ∧
      ∃ a, t.Encloses a d ∧ Generic t a ∧ (∀ x, t.Encloses a x → t.Encloses x d → Generic t x) ∧
        ∃ c ∈ t.children a, t.kind? c = some .typeParam ∧ t.name c = s.name

/-- The rule that is named to a symbol: the first of those it breaks. -/
def Charged (t : SymbolTable) (s : Symbol) : Rule → Prop
  | .sameAsParent => SameAsParent t s
  | .shadowsParam => ¬SameAsParent t s ∧ ShadowsParam t s

theorem exists_charged_iff {t : SymbolTable} {s : Symbol} :
    (∃ r, Charged t s r) ↔ SameAsParent t s ∨ ShadowsParam t s := by
  constructor
  · rintro ⟨r, hr⟩
    cases r with
    | sameAsParent => exact Or.inl hr
    | shadowsParam => exact Or.inr hr.2
  · intro h
    by_cases hs : SameAsParent t s
    · exact ⟨.sameAsParent, hs⟩
    · exact ⟨.shadowsParam, hs, h.resolve_left hs⟩

/-! ### The tests of the rules -/

section
variable {t : SymbolTable} {s : Symbol} {a d i : SymbolId} {name : String}

theorem isGeneric_iff : isGeneric t i = true ↔ Generic t i := by
  unfold isGeneric Generic
  cases t.get? i with
  | none => simp
  | some s => simp [Symbol.isAnonymous]

theorem hasTypeParam_iff (wf : t.WellFormed) (hname : name ≠ "") :
    hasTypeParam t a name = true ↔ ∃ c ∈ t.children a, t.kind? c = some .typeParam ∧ t.name c = name := by
  unfold hasTypeParam
  constructor
  · intro h
    split at h
    · rename_i c hc
      obtain ⟨-, hmem, hn⟩ := (wf.named a name c).mp hc
      exact ⟨c, hmem, of_decide_eq_true h, hn⟩
    · cases h
  · rintro ⟨c, hmem, hkind, hn⟩
    rw [(wf.named a name c).mpr ⟨hname, hmem, hn⟩]
    exact decide_eq_true hkind

theorem mem_outerScopes (wf : t.WellFormed) :
    a ∈ outerScopes t d ↔
      Generic t d ∧ t.Encloses a d ∧ Generic t a ∧ ∀ x, t.Encloses a x → t.Encloses x d → Generic t x := by
  unfold outerScopes
  split
  · rename_i hd
    rw [wf.mem_takeWhile_ancestors]
    simp only [isGeneric_iff] at hd ⊢
    exact (and_iff_right hd).symm
  · rename_i hd
    rw [isGeneric_iff] at hd
    simp [hd]

theorem isParam_iff {k : SymbolKind} : k.isParam = true ↔ k = .typeParam ∨ k = .methodParam := by
  cases k <;> decide

theorem broken_eq_nil (hs : t.get? i = some s) (h : s.name = "" ∨ s.parent = none) : broken t i = [] := by
  rcases h with hname | hp
  · cases hp : s.parent with
    | none => simp [broken, hs, hp]
    | some p => simp [broken, hs, hp, Symbol.isAnonymous, hname]
  · simp [broken, hs, hp]

theorem broken_eq (hs : t.get? i = some s) (hname : s.name ≠ "") {p : SymbolId} (hp : s.parent = some p) :
    broken t i =
      (if t.name p = s.name then [.sameAsParent] else []) ++
        (if s.kind.isParam then ((outerScopes t p).filter (hasTypeParam t · s.name)).map fun _ => .shadowsParam
        else []) := by
  simp [broken, hs, hp, Symbol.isAnonymous, hname]

theorem exists_shadowed_iff (wf : t.WellFormed) (hname : s.name ≠ "") {p : SymbolId} (hp : s.parent = some p) :
    (s.kind.isParam = true ∧ ∃ a, a ∈ (outerScopes t p).filter (hasTypeParam t · s.name)) ↔ ShadowsParam t s := by
  simp only [List.mem_filter, mem_outerScopes wf, hasTypeParam_iff wf hname, isParam_iff]
  constructor
  · rintro ⟨hkind, a, ⟨hd, ha, hga, hbetween⟩, hc⟩
    exact ⟨hname, hkind, p, hp, hd, a, ha, hga, hbetween, hc⟩
  · rintro ⟨-, hkind, d, hd', hd, a, ha, hga, hbetween, hc⟩
    cases hp.symm.trans hd'
    exact ⟨hkind, a, ⟨hd, ha, hga, hbetween⟩, hc⟩

theorem head?_map_const {α β : Type} {l : List α} {b c : β} :
    (l.map fun _ => b).head? = some c ↔ b = c ∧ ∃ a, a ∈ l := by
  cases l with
  | nil => simp
  | cons a l => simp

/-- The first of the rules found to be broken is the one that is named to the symbol. -/
theorem head?_broken (wf : t.WellFormed) (hs : t.get? i = some s) (r : Rule) :
    (broken t i).head? = some r ↔ Charged t s r := by
  by_cases hname : s.name = ""
  · rw [broken_eq_nil hs (Or.inl hname)]
    cases r <;> simp [Charged, SameAsParent, ShadowsParam, hname]
  · cases hp : s.parent with
    | none =>
      rw [broken_eq_nil hs (Or.inr hp)]
      cases r <;> simp [Charged, SameAsParent, ShadowsParam, hp]
    | some p =>
      have hsame : SameAsParent t s ↔ t.name p = s.name := by simp [SameAsParent, hname, hp]
      have hshadow := exists_shadowed_iff wf hname hp
      rw [broken_eq hs hname hp]
      by_cases hn : t.name p = s.name
      · cases r <;> simp [Charged, hsame, hn]
      · rw [if_neg hn, List.nil_append]
        by_cases hkind : s.kind.isParam = true
        · rw [if_pos hkind, head?_map_const]
          cases r <;> simp [Charged, hsame, hn, ← hshadow, hkind]
        · rw [if_neg hkind]
          cases r <;> simp [Charged, hsame, hn, ← hshadow, hkind]

end

/-! ### What verification writes -/

/-- From `p` to `q` the table stays, and the messages about each token are those of the rules that `noted` gives
    for it. -/
structure Notes (p q : Progress) (noted : TokenId → List Rule) : Prop where
  table : q.table = p.table
  tokens : ∀ id, q.pool.get? id = (p.pool.get? id).map (·.noted ((noted id).map Rule.message))

namespace Notes
variable {p q u : Progress} {l r : TokenId → List Rule}

theorem refl (p : Progress) : Notes p p fun _ => [] where
  table := rfl
  tokens := fun id => by simp [Token.noted_nil]

theorem trans (h₁ : Notes p q l) (h₂ : Notes q u r) : Notes p u fun id => l id ++ r id where
  table := h₂.table.trans h₁.table
  tokens := fun id => by
    rw [h₂.tokens, h₁.tokens, Option.map_map, List.map_append]
    congr 1
    funext token
    exact Token.noted_noted token _ _

theorem report (s : Symbol) (p : Progress) (rule : Rule) :
    Notes p (report s p rule) fun id => if s.token = id then [rule] else [] := by
  have htokens : ∀ id, (p.pool.addError s.token rule.message).2.get? id =
      (p.pool.get? id).map (·.noted ((if s.token = id then [rule] else []).map Rule.message)) := fun id => by
    rw [TokenPool.get?_addError]
    split <;> rfl
  unfold Naming.report
  split <;> rename_i pool hpool <;> rw [hpool] at htokens
  · exact ⟨rfl, htokens⟩
  · exact ⟨rfl, htokens⟩

/-- All rules that a symbol breaks go to its own token. -/
theorem foldl_report (s : Symbol) (rules : List Rule) (p : Progress) :
    Notes p (rules.foldl (Naming.report s) p) fun id => if s.token = id then rules else [] := by
  induction rules generalizing p with
  | nil =>
    simp only [ite_self]
    exact refl p
  | cons rule rules ih =>
    have h := (report s p rule).trans (ih (Naming.report s p rule))
    have heq : (fun id => (if s.token = id then [rule] else []) ++ if s.token = id then rules else []) =
        fun id => if s.token = id then rule :: rules else [] := by
      funext id
      split <;> rfl
    rwa [heq] at h

end Notes

/-- The rules that a symbol breaks, if it holds the token. -/
def chargesOf (t : SymbolTable) (id : TokenId) (i : SymbolId) : List Rule :=
  match t.get? i with
  | some s => if s.token = id then broken t i else []
  | none => []

theorem Notes.verifySymbol (p : Progress) (i : SymbolId) :
    Notes p (verifySymbol p i) fun id => chargesOf p.table id i := by
  unfold Naming.verifySymbol chargesOf
  cases p.table.get? i with
  | none => exact Notes.refl p
  | some s => exact Notes.foldl_report s (broken p.table i) p

theorem Notes.foldl_verifySymbol (ids : List SymbolId) (p : Progress) :
    Notes p (ids.foldl Naming.verifySymbol p) fun id => ids.flatMap (chargesOf p.table id) := by
  induction ids generalizing p with
  | nil => exact Notes.refl p
  | cons i ids ih =>
    have h := Notes.verifySymbol p i
    have hrest := ih (Naming.verifySymbol p i)
    rw [h.table] at hrest
    exact h.trans hrest

/-- Verification leaves the table, and each token gets all that is charged to its holders, in visiting order. -/
theorem verify_notes (t : SymbolTable) (pool : TokenPool) :
    (verify t pool).table = t ∧ ∀ id, (verify t pool).pool.get? id =
      (pool.get? id).map (·.noted ((t.visited.flatMap (chargesOf t id)).map Rule.message)) := by
  obtain ⟨htable, htokens⟩ := Notes.foldl_verifySymbol t.visited
    ⟨t, pool, [.enter ⟨"verify_header", [("table.len()", .integer t.size)]⟩]⟩
  exact ⟨htable, htokens⟩

/-! ### Who is charged -/

/-- The symbol `i` holds the token and breaks a rule. -/
def Offends (t : SymbolTable) (id : TokenId) (i : SymbolId) (s : Symbol) : Prop :=
  t.get? i = some s ∧ s.token = id ∧ (SameAsParent t s ∨ ShadowsParam t s)

/-- In visiting order `i` is the first symbol that holds the token and breaks a rule. -/
def FirstOffends (t : SymbolTable) (id : TokenId) (i : SymbolId) (s : Symbol) : Prop :=
  Offends t id i s ∧ ∃ before after, t.visited = before ++ i :: after ∧ ∀ j ∈ before, ∀ s', ¬Offends t id j s'

section
variable {t : SymbolTable} {id : TokenId} {i : SymbolId} {r : Rule}

theorem head?_chargesOf (wf : t.WellFormed) :
    (chargesOf t id i).head? = some r ↔ ∃ s, t.get? i = some s ∧ s.token = id ∧ Charged t s r := by
  unfold chargesOf
  cases hs : t.get? i with
  | none => simp
  | some s =>
    by_cases hid : s.token = id
    · simp [hid, head?_broken wf hs r]
    · simp [hid]

theorem head?_chargesOf_eq_none (wf : t.WellFormed) :
    (chargesOf t id i).head? = none ↔ ∀ s, ¬Offends t id i s := by
  rw [Option.eq_none_iff_forall_ne_some]
  constructor
  · rintro h s ⟨hs, hid, hbreaks⟩
    obtain ⟨r, hr⟩ := exists_charged_iff.mpr hbreaks
    exact h r ((head?_chargesOf wf).mpr ⟨s, hs, hid, hr⟩)
  · intro h r hr
    obtain ⟨s, hs, hid, hr⟩ := (head?_chargesOf wf).mp hr
    exact h s ⟨hs, hid, exists_charged_iff.mp ⟨r, hr⟩⟩

theorem head?_charges (wf : t.WellFormed) :
    (t.visited.flatMap (chargesOf t id)).head? = some r ↔ ∃ i s, FirstOffends t id i s ∧ Charged t s r := by
  rw [List.head?_flatMap, List.findSome?_eq_some_iff]
  constructor
  · rintro ⟨before, i, after, hvisited, hr, hbefore⟩
    obtain ⟨s, hs, hid, hr⟩ := (head?_chargesOf wf).mp hr
    refine ⟨i, s, ⟨⟨hs, hid, exists_charged_iff.mp ⟨r, hr⟩⟩, before, after, hvisited, fun j hj => ?_⟩, hr⟩
    exact (head?_chargesOf_eq_none wf).mp (hbefore j hj)
  · rintro ⟨i, s, ⟨⟨hs, hid, -⟩, before, after, hvisited, hbefore⟩, hr⟩
    refine ⟨before, i, after, hvisited, (head?_chargesOf wf).mpr ⟨s, hs, hid, hr⟩, fun j hj => ?_⟩
    exact (head?_chargesOf_eq_none wf).mpr (hbefore j hj)

/-- Every symbol is visited, so nobody who breaks a rule is missed. -/
theorem head?_charges_isSome (wf : t.WellFormed) :
    (t.visited.flatMap (chargesOf t id)).head?.isSome ↔ ∃ i s, Offends t id i s := by
  rw [Option.isSome_iff_exists]
  constructor
  · rintro ⟨r, hr⟩
    obtain ⟨i, s, ⟨hoffends, -⟩, -⟩ := (head?_charges wf).mp hr
    exact ⟨i, s, hoffends⟩
  · rintro ⟨i, s, hoffends⟩
    have hvisited : i ∈ t.visited := wf.mem_visited.mpr (get?_isSome_iff.mp ⟨s, hoffends.1⟩)
    rw [← Option.isSome_iff_exists, Option.isSome_iff_ne_none, List.head?_flatMap]
    intro hnone
    exact (head?_chargesOf_eq_none wf).mp (List.findSome?_eq_none_iff.mp hnone i hvisited) s hoffends

end

/-- Verification is sound and complete, however tokens are shared and whichever are faulty before: the table
    stays, a faulty token keeps its error, and any other becomes faulty just if one that holds it breaks a rule,
    with the rule named to the first such symbol in visiting order. -/
theorem verify_marks_offenders (rootToken : TokenId) (additions : List Addition) (pool : TokenPool) :
    (verify (grown rootToken additions) pool).table = grown rootToken additions ∧
    ∀ id token, pool.get? id = some token →
      ∃ token', (verify (grown rootToken additions) pool).pool.get? id = some token' ∧
        token'.text = token.text ∧ token'.location = token.location ∧
        (∀ d, token.error = some d → token'.error = some d) ∧
        (token.error = none →
          (token'.error.isSome ↔ ∃ i s, Offends (grown rootToken additions) id i s) ∧
          ∀ d, token'.error = some d → ∃ i s r, FirstOffends (grown rootToken additions) id i s ∧
            Charged (grown rootToken additions) s r ∧ d = token.errorOf r.message) := by
  have wf := WellFormed.grown rootToken additions
  generalize grown rootToken additions = t at wf ⊢
  obtain ⟨htable, htokens⟩ := verify_notes t pool
  refine ⟨htable, fun id token htoken => ?_⟩
  refine ⟨token.noted ((t.visited.flatMap (chargesOf t id)).map Rule.message), ?_, rfl, rfl, fun d hd => ?_,
    fun hnone => ?_⟩
  · rw [htokens, htoken]
    rfl
  · rw [Token.noted_of_error hd, hd]
  · rw [Token.error_noted hnone, List.head?_map, Option.map_map, Option.isSome_map]
    refine ⟨head?_charges_isSome wf, fun d hd => ?_⟩
    obtain ⟨r, hr, rfl⟩ := Option.map_eq_some_iff.mp hd
    obtain ⟨i, s, hfirst, hcharged⟩ := (head?_charges wf).mp hr
    exact ⟨i, s, r, hfirst, hcharged, rfl⟩

-- Three symbols share the token "T": the type parameter is fine, the method's parameter shadows it, and the field
-- has the name of its method, but only the first to break a rule is noted.
example :
    let t := grown 0 [⟨0, "List", .type, 1⟩, ⟨1, "T", .typeParam, 2⟩, ⟨1, "Push", .method, 3⟩,
      ⟨3, "T", .methodParam, 2⟩, ⟨3, "Push", .field, 2⟩]
    let pool : TokenPool := ⟨#[.synthetic "", .synthetic "List", .synthetic "T", .synthetic "Push"]⟩
    ((verify t pool).pool.tokens.toList.map fun k => k.error.map (·.message)) =
      [none, none, some Rule.shadowsParam.message, none] := by
  decide +kernel

end Naming
end Backend
