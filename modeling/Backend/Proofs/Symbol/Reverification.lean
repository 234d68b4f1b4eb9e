import Backend.Proofs.Symbol.Naming

/-! Verification on the way. A table only grows: what is known of a symbol stays, and so does what it is charged with,
    as a rule that is broken is never mended by a later addition. Whoever verifies early, or again and again, so finds
    nothing that is not found at the end, and of a token that has one holder also the message is the same. -/

namespace Backend

/-! ### Growth -/

/-- What stays of a symbol when something is declared inside it. -/
structure Symbol.Keeps (s s' : Symbol) : Prop where
  name : s'.name = s.name
  kind : s'.kind = s.kind
  token : s'.token = s.token
  parent : s'.parent = s.parent
  children : ∀ c ∈ s.children, c ∈ s'.children

theorem Symbol.Keeps.refl (s : Symbol) : s.Keeps s := ⟨rfl, rfl, rfl, rfl, fun _ => id⟩

theorem Symbol.keeps_addChild (s : Symbol) (name : String) (id : SymbolId) : s.Keeps (s.addChild name id) :=
  ⟨rfl, rfl, rfl, rfl, fun _ hc => List.mem_append_left _ hc⟩

namespace SymbolTable

/-- All symbols of one table are in the other. -/
def Grows (t t' : SymbolTable) : Prop := ∀ i s, t.get? i = some s → ∃ s', t'.get? i = some s' ∧ s.Keeps s'

section
variable {t t' : SymbolTable} {a d i : SymbolId}

theorem Grows.refl (t : SymbolTable) : t.Grows t := fun _ s hs => ⟨s, hs, .refl s⟩

theorem grows_attempt (t : SymbolTable) (x : Addition) : t.Grows (t.attempt x) := by
  unfold attempt
  split
  · rename_i id t' hadd
    obtain ⟨-, scope, hscope, -, -, hget⟩ := add_eq_ok hadd
    intro i s hs
    have hi : i ≠ t.size := Nat.ne_of_lt (get?_isSome_iff.mp ⟨s, hs⟩)
    rw [hget, if_neg hi]
    split
    · rename_i hparent
      rw [hparent, hscope] at hs
      cases hs
      exact ⟨_, rfl, scope.keeps_addChild _ _⟩
    · exact ⟨s, hs, .refl s⟩
  · exact .refl t

namespace Grows

theorem name_eq (h : t.Grows t') (hi : i < t.size) : t'.name i = t.name i := by
  obtain ⟨s, hs⟩ := get?_isSome_iff.mpr hi
  obtain ⟨s', hs', hkeeps⟩ := h i s hs
  simp [SymbolTable.name, hs, hs', hkeeps.name]

theorem kind?_eq (h : t.Grows t') (hi : i < t.size) : t'.kind? i = t.kind? i := by
  obtain ⟨s, hs⟩ := get?_isSome_iff.mpr hi
  obtain ⟨s', hs', hkeeps⟩ := h i s hs
  simp [kind?, hs, hs', hkeeps.kind]

theorem parent?_eq (h : t.Grows t') (hi : i < t.size) : t'.parent? i = t.parent? i := by
  obtain ⟨s, hs⟩ := get?_isSome_iff.mpr hi
  obtain ⟨s', hs', hkeeps⟩ := h i s hs
  simp [parent?, hs, hs', hkeeps.parent]

theorem mem_children (h : t.Grows t') {c p : SymbolId} (hc : c ∈ t.children p) : c ∈ t'.children p := by
  cases hs : t.get? p with
  | none => simp [SymbolTable.children, hs] at hc
  | some s =>
    obtain ⟨s', hs', hkeeps⟩ := h p s hs
    rw [SymbolTable.children, hs] at hc
    rw [SymbolTable.children, hs']
    exact hkeeps.children c hc

/-- Nothing comes between the scopes around a symbol. -/
theorem encloses_iff (h : t.Grows t') (wf : t.WellFormed) (hd : d < t.size) : t'.Encloses a d ↔ t.Encloses a d := by
  induction d using Nat.strongRecOn with
  | ind d ih =>
    rw [SymbolTable.encloses_iff, SymbolTable.encloses_iff, h.parent?_eq hd]
    refine exists_congr fun p => and_congr_right fun hp => or_congr_right ?_
    have hlt : p < d := (wf.parent_lt hp).1
    exact ih p hlt (Nat.lt_trans hlt hd)

end Grows
end

end SymbolTable

namespace Naming
open SymbolTable

/-! ### Charges stay -/

section
variable {t t' : SymbolTable} {s s' : Symbol} {i : SymbolId} {r r' : Rule}

theorem parent_lt_size (wf : t.WellFormed) (hs : t.get? i = some s) {p : SymbolId} (hp : s.parent = some p) :
    p < t.size := by
  have hparent : t.parent? i = some p := by simp [parent?, hs, hp]
  exact Nat.lt_trans (wf.parent_lt hparent).1 (lt_size_of_parent? hparent)

theorem Generic.grows (h : t.Grows t') (hi : Generic t i) : Generic t' i := by
  obtain ⟨s, hs, hname, hkind⟩ := hi
  obtain ⟨s', hs', hkeeps⟩ := h i s hs
  exact ⟨s', hs', hkeeps.name ▸ hname, hkeeps.kind ▸ hkind⟩

theorem sameAsParent_iff (h : t.Grows t') (wf : t.WellFormed) (hs : t.get? i = some s) (hkeeps : s.Keeps s') :
    SameAsParent t' s' ↔ SameAsParent t s := by
  unfold SameAsParent
  rw [hkeeps.name, hkeeps.parent]
  refine and_congr_right fun _ => exists_congr fun p => and_congr_right fun hp => ?_
  rw [h.name_eq (parent_lt_size wf hs hp)]

theorem ShadowsParam.grows (h : t.Grows t') (wf : t.WellFormed) (hs : t.get? i = some s) (hkeeps : s.Keeps s')
    (hshadows : ShadowsParam t s) : ShadowsParam t' s' := by
  obtain ⟨hname, hkind, d, hd, hgd, a, had, hga, hbetween, c, hc, hckind, hcname⟩ := hshadows
  have hdsize : d < t.size := parent_lt_size wf hs hd
  have hcsize : c < t.size := (wf.lt_of_mem_children hc).2
  refine ⟨hkeeps.name ▸ hname, hkeeps.kind ▸ hkind, d, hkeeps.parent.trans hd, hgd.grows h, a,
    (h.encloses_iff wf hdsize).mpr had, hga.grows h, fun x hx hxd => ?_, c, h.mem_children hc,
    (h.kind?_eq hcsize).trans hckind, ?_⟩
  · have hxd : t.Encloses x d := (h.encloses_iff wf hdsize).mp hxd
    have hxsize : x < t.size := Nat.lt_trans (wf.lt_of_encloses hxd) hdsize
    exact (hbetween x ((h.encloses_iff wf hxsize).mp hx) hxd).grows h
  · rw [h.name_eq hcsize, hcname, hkeeps.name]

/-- A symbol is charged with the same rule in every later table. -/
theorem Charged.grows (h : t.Grows t') (wf : t.WellFormed) (hs : t.get? i = some s) (hkeeps : s.Keeps s')
    (hr : Charged t s r) : Charged t' s' r := by
  have hsame := sameAsParent_iff h wf hs hkeeps
  cases r with
  | sameAsParent => exact hsame.mpr hr
  | shadowsParam => exact ⟨fun hsame' => hr.1 (hsame.mp hsame'), hr.2.grows h wf hs hkeeps⟩

theorem charged_unique (hr : Charged t s r) (hr' : Charged t s r') : r = r' := by
  cases r <;> cases r'
  · rfl
  · exact absurd hr hr'.1
  · exact absurd hr' hr.1
  · rfl

end

/-! ### Runs -/

/-- What is done with a table. -/
inductive Step where
  | add (a : Addition)
  | verify

def Step.isAdd : Step → Bool
  | .add _ => true
  | .verify => false

def Progress.next (p : Progress) : Step → Progress
  | .add a => { p with table := p.table.attempt a }
  | .verify =>
    let q := verify p.table p.pool
    { q with entries := p.entries ++ q.entries }

/-- The table and the tokens after some steps, the root being all there was in the table. -/
def run (rootToken : TokenId) (pool : TokenPool) (steps : List Step) : Progress :=
  steps.foldl Progress.next ⟨new rootToken, pool, []⟩

/-- No two symbols hold the token. -/
def HeldOnce (t : SymbolTable) (id : TokenId) : Prop := ∀ i j, t.token? i = some id → t.token? j = some id → i = j

section
variable {rootToken : TokenId} {pool : TokenPool}

theorem run_concat (steps : List Step) (step : Step) :
    run rootToken pool (steps ++ [step]) = (run rootToken pool steps).next step := by
  rw [run, List.foldl_concat]
  rfl

theorem table_verify (p : Progress) : (p.next .verify).table = p.table := (verify_notes p.table p.pool).1

/-- What is charged at a verification comes after what was noted before it. -/
theorem get?_verify {p : Progress} {id : TokenId} {rules : List Rule}
    (h : p.pool.get? id = (pool.get? id).map (·.noted (rules.map Rule.message))) :
    (p.next .verify).pool.get? id = (pool.get? id).map
      (·.noted ((rules ++ p.table.visited.flatMap (chargesOf p.table id)).map Rule.message)) := by
  refine ((verify_notes p.table p.pool).2 id).trans ?_
  rw [h, Option.map_map, List.map_append]
  congr 1
  funext token
  exact Token.noted_noted token _ _

/-- The table is made by the additions alone. -/
theorem table_foldl (steps : List Step) (p q : Progress) (h : p.table = q.table) :
    (steps.foldl Progress.next p).table = ((steps.filter Step.isAdd).foldl Progress.next q).table := by
  induction steps generalizing p q with
  | nil => exact h
  | cons step steps ih =>
    cases step with
    | add a => exact ih _ _ (congrArg (SymbolTable.attempt · a) h)
    | verify => exact ih _ _ ((table_verify p).trans h)

/-- Without verification the tokens stay as they are. -/
theorem pool_foldl_adds (steps : List Step) (p : Progress) :
    ((steps.filter Step.isAdd).foldl Progress.next p).pool = p.pool := by
  induction steps generalizing p with
  | nil => rfl
  | cons step steps ih =>
    cases step with
    | add a => exact ih _
    | verify => exact ih p

/-- The table is well formed, and what has been noted about a token since the pool was as given starts, if it is
    anything, with a rule that a holder of the token is charged with. -/
structure Traced (pool : TokenPool) (p : Progress) : Prop where
  wellFormed : p.table.WellFormed
  noted : ∀ id, ∃ rules : List Rule, p.pool.get? id = (pool.get? id).map (·.noted (rules.map Rule.message)) ∧
    ∀ r ∈ rules.head?, ∃ i s, p.table.get? i = some s ∧ s.token = id ∧ Charged p.table s r

theorem Traced.next {p : Progress} (h : Traced pool p) (step : Step) : Traced pool (p.next step) := by
  cases step with
  | add a =>
    refine ⟨h.wellFormed.attempt a, fun id => ?_⟩
    obtain ⟨rules, hget, hhead⟩ := h.noted id
    refine ⟨rules, hget, fun r hr => ?_⟩
    obtain ⟨i, s, hs, hid, hcharged⟩ := hhead r hr
    have hgrows := grows_attempt p.table a
    obtain ⟨s', hs', hkeeps⟩ := hgrows i s hs
    exact ⟨i, s', hs', hkeeps.token.trans hid, hcharged.grows hgrows h.wellFormed hs hkeeps⟩
  | verify =>
    have htable := table_verify p
    refine ⟨htable.symm ▸ h.wellFormed, fun id => ?_⟩
    obtain ⟨rules, hget, hhead⟩ := h.noted id
    refine ⟨rules ++ p.table.visited.flatMap (chargesOf p.table id), get?_verify hget, fun r hr => ?_⟩
    rw [List.head?_append, Option.mem_def, Option.or_eq_some_iff] at hr
    rw [htable]
    rcases hr with hr | ⟨-, hr⟩
    · exact hhead r hr
    · obtain ⟨i, s, ⟨⟨hs, hid, -⟩, -⟩, hcharged⟩ := (head?_charges h.wellFormed).mp hr
      exact ⟨i, s, hs, hid, hcharged⟩

theorem traced_run (rootToken : TokenId) (pool : TokenPool) (steps : List Step) :
    Traced pool (run rootToken pool steps) := by
  have hstart : Traced pool ⟨new rootToken, pool, []⟩ :=
    ⟨WellFormed.new rootToken, fun id => ⟨[], by simp [Token.noted_nil], nofun⟩⟩
  exact List.foldlRecOn steps Progress.next hstart fun _ h step _ => h.next step

end

/-! ### The verdict -/

section
variable {t : SymbolTable} {id : TokenId} {rules : List Rule}

/-- A rule that was noted early is followed by one that is noted at the end. -/
theorem head?_isSome_of_charged (wf : t.WellFormed)
    (h : ∀ r ∈ rules.head?, ∃ i s, t.get? i = some s ∧ s.token = id ∧ Charged t s r) :
    (rules ++ t.visited.flatMap (chargesOf t id)).head?.isSome = (t.visited.flatMap (chargesOf t id)).head?.isSome := by
  cases rules with
  | nil => rfl
  | cons r rules =>
    obtain ⟨i, s, hs, hid, hcharged⟩ := h r rfl
    exact ((head?_charges_isSome wf).mpr ⟨i, s, hs, hid, exists_charged_iff.mp ⟨r, hcharged⟩⟩).symm

/-- If the token has one holder, both are what this one is charged with. -/
theorem head?_eq_of_charged (wf : t.WellFormed) (honce : HeldOnce t id)
    (h : ∀ r ∈ rules.head?, ∃ i s, t.get? i = some s ∧ s.token = id ∧ Charged t s r) :
    (rules ++ t.visited.flatMap (chargesOf t id)).head? = (t.visited.flatMap (chargesOf t id)).head? := by
  have hsome := head?_isSome_of_charged wf h
  cases rules with
  | nil => rfl
  | cons r rules =>
    obtain ⟨r', hr'⟩ := Option.isSome_iff_exists.mp hsome.symm
    obtain ⟨i, s, hs, hid, hcharged⟩ := h r rfl
    obtain ⟨j, s', ⟨⟨hs', hid', -⟩, -⟩, hcharged'⟩ := (head?_charges wf).mp hr'
    obtain rfl : i = j := honce i j (by simp [token?, hs, hid]) (by simp [token?, hs', hid'])
    cases hs.symm.trans hs'
    rw [hr', charged_unique hcharged' hcharged]
    rfl

end

theorem error_noted_rules (token : Token) (rules : List Rule) :
    (token.noted (rules.map Rule.message)).error = token.error.or (rules.head?.map (token.errorOf ·.message)) := by
  rw [Token.noted, List.head?_map, Option.map_map]
  rfl

/-- After one more verification the same tokens are faulty as if nothing had been verified before. -/
theorem Traced.verdict {pool : TokenPool} {p q : Progress} (h : Traced pool p) (htable : q.table = p.table)
    (hpool : q.pool = pool) (id : TokenId) :
    ((p.next .verify).pool.errorOf? id).isSome = ((q.next .verify).pool.errorOf? id).isSome ∧
    (HeldOnce p.table id → (p.next .verify).pool.errorOf? id = (q.next .verify).pool.errorOf? id) := by
  obtain ⟨rules, hget, hcharged⟩ := h.noted id
  have hsome := head?_isSome_of_charged h.wellFormed hcharged
  have hnothing : q.pool.get? id = (pool.get? id).map (·.noted (([] : List Rule).map Rule.message)) := by
    rw [hpool]
    simp [Token.noted_nil]
  rw [TokenPool.errorOf?, TokenPool.errorOf?, get?_verify hget, get?_verify hnothing, htable, List.nil_append]
  cases pool.get? id with
  | none => exact ⟨rfl, fun _ => rfl⟩
  | some token =>
    simp only [Option.map_some, Option.bind_some, error_noted_rules]
    refine ⟨?_, fun honce => ?_⟩
    · rw [Option.isSome_or, Option.isSome_or, Option.isSome_map, Option.isSome_map, hsome]
    · rw [head?_eq_of_charged h.wellFormed honce hcharged]

/-- Verifying early or repeatedly does not change the verdict. Any run of additions and verifications that ends with a
    verification leaves the same table as the run with the same additions and one verification at the end, and the
    same tokens are faulty after both, however tokens are shared. A token that no two symbols hold has the same error
    in both, with its message and its place. -/
theorem early_verification_keeps_verdict (rootToken : TokenId) (pool : TokenPool) (steps : List Step) :
    let early := run rootToken pool (steps ++ [.verify])
    let once := run rootToken pool (steps.filter Step.isAdd ++ [.verify])
    early.table = once.table ∧
    (∀ id, (early.pool.errorOf? id).isSome = (once.pool.errorOf? id).isSome) ∧
    ∀ id, HeldOnce early.table id → early.pool.errorOf? id = once.pool.errorOf? id := by
  have htraced := traced_run rootToken pool steps
  have htable : (run rootToken pool (steps.filter Step.isAdd)).table = (run rootToken pool steps).table :=
    (table_foldl steps _ _ rfl).symm
  have hpool : (run rootToken pool (steps.filter Step.isAdd)).pool = pool := pool_foldl_adds steps _
  have hverdict := htraced.verdict htable hpool
  rw [run_concat, run_concat]
  refine ⟨?_, fun id => (hverdict id).1, fun id honce => (hverdict id).2 ?_⟩
  · rw [table_verify, table_verify, htable]
  · rwa [table_verify] at honce

-- A token with two holders can get another message early: here the first to be found is the method, but the parameter
-- that is added later comes before it in visiting order.
example :
    let steps : List Step := [.add ⟨0, "Set", .type, 1⟩, .add ⟨1, "T", .typeParam, 1⟩, .add ⟨1, "Put", .method, 1⟩,
      .add ⟨0, "Map", .type, 1⟩, .add ⟨4, "Map", .method, 2⟩, .verify, .add ⟨3, "T", .methodParam, 2⟩]
    let pool : TokenPool := ⟨#[.synthetic "", .synthetic "x", .synthetic "y"]⟩
    ((run 0 pool (steps ++ [.verify])).pool.errorOf? 2).map (·.message) = some Rule.sameAsParent.message ∧
    ((run 0 pool (steps.filter Step.isAdd ++ [.verify])).pool.errorOf? 2).map (·.message) =
      some Rule.shadowsParam.message := by
  decide +kernel

end Naming
end Backend
