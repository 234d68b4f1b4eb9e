import Backend.Proofs.Code.Locals

/-! A batch of functions is added as a whole or not at all. The batch is checked first, each function against the
    builder and against those before it in the batch; what was found free then is still free when its turn comes
    to be added, so the adding never stops half way. -/

namespace Backend

namespace Builder

/-! ### What a batch must be -/

/-- The batch can be added: no function names a slot out of range, and the names are distinct and free. -/
structure Acceptable (b : Builder) (batch : List Routine) : Prop where
  locals : ∀ r ∈ batch, r.function.checkLocals = .ok ()
  distinct : (batch.map (·.fullName)).Nodup
  free : ∀ r ∈ batch, b.hasFunction r.fullName = false

/-- What is wrong with a function of a batch, after others of the given names. -/
inductive Offence (b : Builder) (names : List String) (r : Routine) : ProjectError → Prop where
  | locals {e : UndeclaredLocal} (h : r.function.checkLocals = .error e) : Offence b names r (.undeclared e)
  | taken (h : r.function.checkLocals = .ok ()) (ht : b.hasFunction r.fullName = true ∨ r.fullName ∈ names) :
    Offence b names r (.duplicate ⟨.function, r.fullName⟩)

/-- The error is about the first function of the batch that has something wrong with it. -/
def FirstOffence (b : Builder) (batch : List Routine) (e : ProjectError) : Prop :=
  ∃ before r after, batch = before ++ r :: after ∧ Acceptable b before ∧
    Offence b (before.map (·.fullName)) r e

/-- Adds one function as it is. -/
def addRoutine (b : Builder) (r : Routine) : Except ProjectError Builder := do
  let code ← r.function.codeRecord.mapError .badLocal
  (b.addFunction r.fullName r.signature code).mapError .duplicate

/-! ### One function -/

/-- Nothing is wrong with a function, after others of the given names. -/
structure Fits (b : Builder) (names : List String) (r : Routine) : Prop where
  locals : r.function.checkLocals = .ok ()
  free : b.hasFunction r.fullName = false
  fresh : r.fullName ∉ names

section
variable {b : Builder} {names : List String} {r : Routine}

theorem projected_of_fits (h : Fits b names r) :
    ∃ code, r.function.codeRecord = .ok code ∧ b.projected names r = .ok (r.fullName, r.signature, code) := by
  obtain ⟨-, code, hcode⟩ := Function.outcome_of_declared (Function.checkLocals_eq_ok.mp h.locals)
  have hfree : (b.hasFunction r.fullName || names.contains r.fullName) = false := by simp [h.free, h.fresh]
  refine ⟨code, hcode, ?_⟩
  rw [projected, h.locals, hfree, hcode]
  rfl

theorem projected_of_offence {e : ProjectError} (h : Offence b names r e) : b.projected names r = .error e := by
  cases h with
  | locals h =>
    rw [projected, h]
    rfl
  | taken h ht =>
    have htaken : (b.hasFunction r.fullName || names.contains r.fullName) = true := by simpa using ht
    rw [projected, h, htaken]
    rfl

theorem fits_or_offence (b : Builder) (names : List String) (r : Routine) :
    Fits b names r ∨ ∃ e, Offence b names r e := by
  cases hlocals : r.function.checkLocals with
  | error e => exact Or.inr ⟨_, .locals hlocals⟩
  | ok _ =>
    by_cases ht : b.hasFunction r.fullName = true ∨ r.fullName ∈ names
    · exact Or.inr ⟨_, .taken hlocals ht⟩
    · rw [not_or, Bool.not_eq_true] at ht
      exact Or.inl ⟨hlocals, ht.1, ht.2⟩

end

/-! ### The check of a batch -/

/-- Nothing is wrong with any function of a batch, after others of the given names. -/
def AllFit (b : Builder) : List String → List Routine → Prop
  | _, [] => True
  | names, r :: rest => Fits b names r ∧ AllFit b (r.fullName :: names) rest

section
variable {b : Builder} {names : List String} {batch : List Routine}

theorem allFit_iff : AllFit b names batch ↔ Acceptable b batch ∧ ∀ r ∈ batch, r.fullName ∉ names := by
  induction batch generalizing names with
  | nil => exact iff_of_true trivial ⟨⟨by simp, List.nodup_nil, by simp⟩, by simp⟩
  | cons r rest ih =>
    rw [AllFit, ih]
    constructor
    · rintro ⟨hfits, hacc, hfresh⟩
      refine ⟨⟨?_, ?_, ?_⟩, ?_⟩
      · exact List.forall_mem_cons.mpr ⟨hfits.locals, hacc.locals⟩
      · refine List.nodup_cons.mpr ⟨fun h => ?_, hacc.distinct⟩
        obtain ⟨r', hr', hname⟩ := List.mem_map.mp h
        exact hfresh r' hr' (hname ▸ List.mem_cons_self)
      · exact List.forall_mem_cons.mpr ⟨hfits.free, hacc.free⟩
      · exact List.forall_mem_cons.mpr ⟨hfits.fresh, fun r' hr' h => hfresh r' hr' (List.mem_cons_of_mem _ h)⟩
    · rintro ⟨⟨hlocals, hdistinct, hfree⟩, hfresh⟩
      obtain ⟨hr, hrest⟩ := List.nodup_cons.mp hdistinct
      refine ⟨⟨hlocals r List.mem_cons_self, hfree r List.mem_cons_self, hfresh r List.mem_cons_self⟩,
        ⟨fun r' h => hlocals r' (List.mem_cons_of_mem _ h), hrest, fun r' h => hfree r' (List.mem_cons_of_mem _ h)⟩,
        fun r' hr' h => ?_⟩
      rcases List.mem_cons.mp h with hname | h
      · exact hr (List.mem_map.mpr ⟨r', hr', hname⟩)
      · exact hfresh r' (List.mem_cons_of_mem _ hr') h

/-- A batch with something wrong in it is refused for the first such function. -/
theorem fit_or_refused (b : Builder) (names : List String) (batch : List Routine) :
    AllFit b names batch ∨ ∃ before r after e, batch = before ++ r :: after ∧ AllFit b names before ∧
      Offence b ((before.map (·.fullName)).reverse ++ names) r e ∧ b.projectedAll names batch = .error e := by
  induction batch generalizing names with
  | nil => exact Or.inl trivial
  | cons r rest ih =>
    rcases fits_or_offence b names r with hfits | ⟨e, he⟩
    · rcases ih (r.fullName :: names) with hall | ⟨before, r', after, e, hrest, hbefore, he, herror⟩
      · exact Or.inl ⟨hfits, hall⟩
      · obtain ⟨code, -, hr⟩ := projected_of_fits hfits
        refine Or.inr ⟨r :: before, r', after, e, by rw [hrest, List.cons_append], ⟨hfits, hbefore⟩, ?_, ?_⟩
        · rw [List.map_cons, List.reverse_cons, List.append_assoc]
          exact he
        · simp [projectedAll, hr, herror, bind, Except.bind]
    · refine Or.inr ⟨[], r, rest, e, rfl, trivial, he, ?_⟩
      simp [projectedAll, projected_of_offence he, bind, Except.bind]

theorem Offence.congr {names' : List String} {r : Routine} {e : ProjectError} (h : Offence b names r e)
    (hn : r.fullName ∈ names → r.fullName ∈ names') : Offence b names' r e := by
  cases h with
  | locals h => exact .locals h
  | taken h ht => exact .taken h (ht.imp_right hn)

end

/-! ### Adding what was checked -/

/-- All but the functions is the same in both builders. -/
structure SameBesides (b b' : Builder) : Prop where
  constants : b'.constants = b.constants
  types : b'.types = b.types
  strings : b'.strings = b.strings
  trStrings : b'.trStrings = b.trStrings

theorem SameBesides.trans {b b' b'' : Builder} (h : SameBesides b b') (h' : SameBesides b' b'') :
    SameBesides b b'' :=
  ⟨h'.constants.trans h.constants, h'.types.trans h.types, h'.strings.trans h.strings,
    h'.trStrings.trans h.trStrings⟩

section
variable {b : Builder} {names : List String} {batch : List Routine}

theorem addFunction_of_free {name : String} (h : b.hasFunction name = false) (signature : Signature)
    (code : CodeRecord) : ∃ b', b.addFunction name signature code = .ok b' ∧ SameBesides b b' ∧
      ∀ n, b'.hasFunction n = true ↔ n = name ∨ b.hasFunction n = true := by
  refine ⟨_, if_neg (by simp [h]), ⟨rfl, rfl, rfl, rfl⟩, fun n => ?_⟩
  exact Catalog.contains_insert b.functions name n signature

/-- A batch with nothing wrong in it passes the check, and then a builder that has got the functions before it
    takes each of its functions. -/
theorem projectedAll_of_allFit (h : AllFit b names batch) :
    ∃ entries, b.projectedAll names batch = .ok entries ∧
      ∀ b', (∀ n, b'.hasFunction n = true ↔ n ∈ names ∨ b.hasFunction n = true) →
        ∃ b'', b'.addEach entries = (.ok (), b'') ∧ batch.foldlM addRoutine b' = .ok b'' ∧ SameBesides b' b'' := by
  induction batch generalizing names with
  | nil => exact ⟨[], rfl, fun b' _ => ⟨b', rfl, rfl, rfl, rfl, rfl, rfl⟩⟩
  | cons r rest ih =>
    obtain ⟨hfits, hrest⟩ := h
    obtain ⟨code, hcode, hr⟩ := projected_of_fits hfits
    obtain ⟨entries, hentries, hadd⟩ := ih hrest
    refine ⟨(r.fullName, r.signature, code) :: entries, ?_, fun b' hb' => ?_⟩
    · simp [projectedAll, hr, hentries, bind, Except.bind, pure, Except.pure]
    · -- The names in `b'` are those that the check of this function looked through.
      have hfree : b'.hasFunction r.fullName = false := by
        rw [← Bool.not_eq_true, hb', not_or, Bool.not_eq_true]
        exact ⟨hfits.fresh, hfits.free⟩
      obtain ⟨b₁, hb₁, hsame, hhas⟩ := addFunction_of_free hfree r.signature code
      obtain ⟨b'', heach, hfold, hsame'⟩ := hadd b₁ fun n => by
        rw [hhas, hb', List.mem_cons, or_assoc]
      refine ⟨b'', ?_, ?_, hsame.trans hsame'⟩
      · rw [addEach, hb₁]
        exact heach
      · have hone : addRoutine b' r = .ok b₁ := by
          rw [addRoutine, hcode]
          exact congrArg (Except.mapError ProjectError.duplicate) hb₁
        rw [List.foldlM_cons, hone]
        exact hfold

theorem projectBatch_of_acceptable (h : Acceptable b batch) :
    ∃ b', b.projectBatch batch = (.ok (), b') ∧ batch.foldlM addRoutine b = .ok b' ∧ SameBesides b b' := by
  obtain ⟨entries, hentries, hadd⟩ := projectedAll_of_allFit (allFit_iff.mpr ⟨h, fun _ _ => List.not_mem_nil⟩)
  obtain ⟨b', heach, hfold, hsame⟩ := hadd b fun n => by simp
  refine ⟨b', ?_, hfold, hsame⟩
  rw [projectBatch, hentries]
  exact heach

theorem projectBatch_of_not_acceptable (h : ¬Acceptable b batch) :
    ∃ e, b.projectBatch batch = (.error e, b) ∧ FirstOffence b batch e := by
  rcases fit_or_refused b [] batch with hall | ⟨before, r, after, e, hbatch, hbefore, he, herror⟩
  · exact absurd (allFit_iff.mp hall).1 h
  · refine ⟨e, by rw [projectBatch, herror], before, r, after, hbatch, (allFit_iff.mp hbefore).1, ?_⟩
    exact he.congr fun hmem => by simpa using hmem

end

/-- Adding a batch is all or nothing. It succeeds just if every function passes the check of its slots and the
    names are distinct and free, and then the builder is the one that gets them one after the other. Otherwise the
    builder stays as it is and the error is about the first function of the batch that has something wrong. No
    function is found to be unlistable after it passed the check. -/
theorem projectBatch_all_or_nothing (b : Builder) (batch : List Routine) :
    (∀ e, (b.projectBatch batch).1 ≠ .error (.badLocal e)) ∧
    ((b.projectBatch batch).1 = .ok () ↔ Acceptable b batch) ∧
    ((b.projectBatch batch).1 = .ok () →
      batch.foldlM addRoutine b = .ok (b.projectBatch batch).2 ∧ SameBesides b (b.projectBatch batch).2) ∧
    (∀ e, (b.projectBatch batch).1 = .error e → (b.projectBatch batch).2 = b ∧ FirstOffence b batch e) := by
  by_cases h : Acceptable b batch
  · obtain ⟨b', hproject, hfold, hsame⟩ := projectBatch_of_acceptable h
    rw [hproject]
    exact ⟨nofun, iff_of_true rfl h, fun _ => ⟨hfold, hsame⟩, nofun⟩
  · obtain ⟨e, hproject, hfirst⟩ := projectBatch_of_not_acceptable h
    rw [hproject]
    refine ⟨fun e' he => ?_, iff_of_false nofun h, nofun, fun e' he => ?_⟩
    · cases he
      obtain ⟨before, r, after, -, -, hoffence⟩ := hfirst
      cases hoffence
    · cases he
      exact ⟨rfl, hfirst⟩

end Builder
end Backend
