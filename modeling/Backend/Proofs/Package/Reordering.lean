import Backend.Package.Encoding
import Backend.Proofs.Catalog
import Backend.Proofs.Package.Projection
import Backend.Proofs.Package.Requests
import Mathlib.Data.List.Flatten

/-! The order of requests. What a request puts into a builder that takes it can be told without the builder, and
    whether it is taken depends on names alone. So requests that are all taken are all taken in any other order, and
    as a catalog does not remember how it was filled, only the order of the texts can be told in the end. -/

namespace Backend

/-! ### What a request puts in -/

namespace Request

def constantEntries : Request → List (String × Constant)
  | .constant name c => [(name, c)]
  | _ => []

def typeEntries : Request → List (String × TypeRecord)
  | .type name r => [(name, { r with methods := [] })]
  | _ => []

def signatureEntries : Request → List (String × Signature)
  | .function name signature _ => [(name, signature)]
  | .batch routines => routines.map fun r => (r.fullName, r.signature)
  | _ => []

def codeEntries : Request → List (String × CodeRecord)
  | .function name _ code => [(name, code)]
  | .batch routines => routines.filterMap fun r => r.function.codeRecord.toOption.map (r.fullName, ·)
  | _ => []

def texts : Request → List String
  | .string text => [text]
  | _ => []

def translatables : Request → List Translatable
  | .trString t => [t]
  | _ => []

/-- All functions of a batch pass the check of their slots. -/
def Declared : Request → Prop
  | .batch routines => ∀ r ∈ routines, r.function.checkLocals = .ok ()
  | _ => True

theorem codeEntries_sublist (r : Request) : (r.codeEntries.map (·.1)).Sublist (r.signatureEntries.map (·.1)) := by
  cases r with
  | batch routines =>
    simp only [codeEntries, signatureEntries, List.map_map, List.map_filterMap]
    induction routines with
    | nil => exact .slnil
    | cons r routines ih =>
      cases hcode : r.function.codeRecord with
      | error e =>
        rw [List.filterMap_cons_none (by simp [hcode, Except.toOption]), List.map_cons]
        exact ih.cons _
      | ok code =>
        rw [List.filterMap_cons_some (b := r.fullName) (by simp [hcode, Except.toOption]), List.map_cons]
        exact ih.cons_cons _
  | _ => exact .refl _

end Request

namespace Builder
open Catalog

/-- The builder takes all the requests, one after the other. -/
def TakesAll (b : Builder) : List Request → Prop
  | [] => True
  | r :: rest => (∃ answer, (b.perform r).1 = .ok answer) ∧ TakesAll (b.perform r).2 rest

/-- The builder with all that some requests put in. -/
def gather (b : Builder) (requests : List Request) : Builder where
  constants := b.constants.insertAll (requests.flatMap Request.constantEntries)
  types := b.types.insertAll (requests.flatMap Request.typeEntries)
  functions := b.functions.insertAll (requests.flatMap Request.signatureEntries)
  code := b.code.insertAll (requests.flatMap Request.codeEntries)
  strings := (requests.flatMap Request.texts).foldl (fun pool text => (Pool.intern pool text).2) b.strings
  trStrings := (requests.flatMap Request.translatables).foldl (fun pool t => (Pool.intern pool t).2) b.trStrings

/-- Nothing stands against any of the requests: their names are free and distinct, and slots are declared. -/
structure Welcome (b : Builder) (requests : List Request) : Prop where
  constants : Fresh b.constants (requests.flatMap Request.constantEntries)
  types : Fresh b.types (requests.flatMap Request.typeEntries)
  functions : Fresh b.functions (requests.flatMap Request.signatureEntries)
  declared : ∀ r ∈ requests, r.Declared

/-! ### One request -/

section
variable {b b' : Builder}

theorem fresh_nil {α : Type} (c : Catalog α) : Fresh c [] := ⟨List.nodup_nil, nofun⟩

theorem fresh_singleton {α : Type} {c : Catalog α} {e : String × α} : Fresh c [e] ↔ c.contains e.1 = false := by
  constructor
  · intro h
    exact h.free e List.mem_cons_self
  · intro h
    exact ⟨List.nodup_singleton _, by simpa using h⟩

theorem addRoutine_eq_ok {r : Routine} (h : b.addRoutine r = .ok b') :
    ∃ code, r.function.codeRecord = .ok code ∧
      b' = { b with
        functions := b.functions.insert r.fullName r.signature
        code := b.code.insert r.fullName code } := by
  unfold addRoutine at h
  cases hcode : r.function.codeRecord with
  | error e => simp [hcode, Except.mapError, bind, Except.bind] at h
  | ok code =>
    simp only [hcode, addFunction, Except.mapError, bind, Except.bind] at h
    split at h
    · cases h
    · rename_i hadd
      split at hadd
      · cases hadd
      · cases hadd
        cases h
        exact ⟨code, rfl, rfl⟩

/-- Functions that are added one by one are what a batch of them puts in. -/
theorem foldlM_addRoutine {routines : List Routine} (h : routines.foldlM addRoutine b = .ok b') :
    b' = b.gather [.batch routines] := by
  induction routines generalizing b with
  | nil =>
    cases h
    rfl
  | cons r routines ih =>
    rw [List.foldlM_cons] at h
    cases hr : addRoutine b r with
    | error e => simp [hr, bind, Except.bind] at h
    | ok b₁ =>
      obtain ⟨code, hcode, rfl⟩ := addRoutine_eq_ok hr
      rw [hr] at h
      rw [ih h]
      simp [gather, Request.constantEntries, Request.typeEntries, Request.signatureEntries, Request.codeEntries,
        Request.texts, Request.translatables, insertAll, hcode, Except.toOption]

theorem welcome_constant {name : String} {c : Constant} :
    Welcome b [.constant name c] ↔ b.constants.contains name = false := by
  constructor
  · intro h
    exact fresh_singleton.mp h.constants
  · intro h
    exact ⟨fresh_singleton.mpr h, fresh_nil _, fresh_nil _, by simp [Request.Declared]⟩

theorem welcome_type {name : String} {r : TypeRecord} :
    Welcome b [.type name r] ↔ b.types.contains name = false := by
  constructor
  · intro h
    exact fresh_singleton.mp h.types
  · intro h
    exact ⟨fresh_nil _, fresh_singleton.mpr h, fresh_nil _, by simp [Request.Declared]⟩

theorem welcome_function {name : String} {signature : Signature} {code : CodeRecord} :
    Welcome b [.function name signature code] ↔ b.hasFunction name = false := by
  constructor
  · intro h
    exact fresh_singleton.mp h.functions
  · intro h
    exact ⟨fresh_nil _, fresh_nil _, fresh_singleton.mpr h, by simp [Request.Declared]⟩

theorem welcome_batch {routines : List Routine} : Welcome b [.batch routines] ↔ Acceptable b routines := by
  have hsignatures : [Request.batch routines].flatMap Request.signatureEntries =
      routines.map fun r => (r.fullName, r.signature) := List.append_nil _
  have hnames : (routines.map fun r => (r.fullName, r.signature)).map (·.1) = routines.map (·.fullName) := by
    rw [List.map_map]
    rfl
  constructor
  · rintro ⟨-, -, hfresh, hdeclared⟩
    rw [hsignatures] at hfresh
    refine ⟨hdeclared _ List.mem_cons_self, hnames ▸ hfresh.distinct, fun r hr => ?_⟩
    exact hfresh.free (r.fullName, r.signature) (List.mem_map_of_mem hr)
  · rintro ⟨hlocals, hdistinct, hfree⟩
    refine ⟨fresh_nil _, fresh_nil _, ?_, by simpa [Request.Declared] using hlocals⟩
    rw [hsignatures]
    refine ⟨hnames ▸ hdistinct, fun e he => ?_⟩
    obtain ⟨r, hr, rfl⟩ := List.mem_map.mp he
    exact hfree r hr

/-- A request is taken just if nothing stands against it, and then it puts in what it has to. -/
theorem perform_cases (b : Builder) (r : Request) :
    (Welcome b [r] ∧ ∃ answer, b.perform r = (.ok answer, b.gather [r])) ∨
      (¬Welcome b [r] ∧ ∃ e, (b.perform r).1 = .error e) := by
  cases r with
  | constant name c =>
    rw [welcome_constant, perform, addConstant, insertNew]
    cases b.constants.contains name with
    | false => exact Or.inl ⟨rfl, none, rfl⟩
    | true => exact Or.inr ⟨nofun, _, rfl⟩
  | type name r =>
    rw [welcome_type, perform, addType, insertNew]
    cases b.types.contains name with
    | false => exact Or.inl ⟨rfl, none, rfl⟩
    | true => exact Or.inr ⟨nofun, _, rfl⟩
  | function name signature code =>
    rw [welcome_function, perform, addFunction]
    cases b.hasFunction name with
    | false => exact Or.inl ⟨rfl, none, rfl⟩
    | true => exact Or.inr ⟨nofun, _, rfl⟩
  | string text =>
    exact Or.inl ⟨⟨fresh_nil _, fresh_nil _, fresh_nil _, by simp [Request.Declared]⟩, _, rfl⟩
  | trString t =>
    exact Or.inl ⟨⟨fresh_nil _, fresh_nil _, fresh_nil _, by simp [Request.Declared]⟩, _, rfl⟩
  | batch routines =>
    rw [welcome_batch]
    by_cases h : Acceptable b routines
    · obtain ⟨b', hproject, hfold, -⟩ := projectBatch_of_acceptable h
      refine Or.inl ⟨h, none, ?_⟩
      rw [perform, hproject, foldlM_addRoutine hfold]
      rfl
    · obtain ⟨e, hproject, -⟩ := projectBatch_of_not_acceptable h
      refine Or.inr ⟨h, e, ?_⟩
      rw [perform, hproject]
      rfl

end

/-! ### Many requests -/

section
variable {b : Builder} {requests requests' : List Request}

theorem gather_cons (b : Builder) (r : Request) (rest : List Request) :
    b.gather (r :: rest) = (b.gather [r]).gather rest := by
  simp [gather, insertAll_append, List.foldl_append]

theorem welcome_cons {r : Request} {rest : List Request} :
    Welcome b (r :: rest) ↔ Welcome b [r] ∧ Welcome (b.gather [r]) rest := by
  have split : ∀ {α : Type} (c : Catalog α) (f : Request → List (String × α)),
      Fresh c ((r :: rest).flatMap f) ↔
        Fresh c ([r].flatMap f) ∧ Fresh (c.insertAll ([r].flatMap f)) (rest.flatMap f) := fun c f => by
    rw [List.flatMap_singleton, List.flatMap_cons, fresh_append]
  constructor
  · rintro ⟨hconstants, htypes, hfunctions, hdeclared⟩
    obtain ⟨hr, hrest⟩ := List.forall_mem_cons.mp hdeclared
    exact ⟨⟨((split _ _).mp hconstants).1, ((split _ _).mp htypes).1, ((split _ _).mp hfunctions).1, by simpa using hr⟩,
      ⟨((split _ _).mp hconstants).2, ((split _ _).mp htypes).2, ((split _ _).mp hfunctions).2, hrest⟩⟩
  · rintro ⟨hr, hrest⟩
    exact ⟨(split _ _).mpr ⟨hr.constants, hrest.constants⟩, (split _ _).mpr ⟨hr.types, hrest.types⟩,
      (split _ _).mpr ⟨hr.functions, hrest.functions⟩,
      List.forall_mem_cons.mpr ⟨hr.declared r List.mem_cons_self, hrest.declared⟩⟩

theorem takesAll_iff : b.TakesAll requests ↔ Welcome b requests := by
  induction requests generalizing b with
  | nil => exact iff_of_true trivial ⟨fresh_nil _, fresh_nil _, fresh_nil _, nofun⟩
  | cons r rest ih =>
    rw [TakesAll, welcome_cons]
    rcases perform_cases b r with ⟨hwelcome, answer, hperform⟩ | ⟨hnot, e, hperform⟩
    · rw [hperform, ih]
      exact and_congr_left fun _ => iff_of_true ⟨answer, rfl⟩ hwelcome
    · rw [hperform]
      exact iff_of_false (fun h => by simp at h) fun h => hnot h.1

theorem foldl_perform (h : Welcome b requests) : requests.foldl (fun b r => (b.perform r).2) b = b.gather requests := by
  induction requests generalizing b with
  | nil => rfl
  | cons r rest ih =>
    obtain ⟨hr, hrest⟩ := welcome_cons.mp h
    rcases perform_cases b r with ⟨-, answer, hperform⟩ | ⟨hnot, -⟩
    · rw [List.foldl_cons, hperform, ih hrest, ← gather_cons]
    · exact absurd hr hnot

/-! ### Another order -/

theorem Welcome.perm (h : Welcome b requests) (hperm : requests.Perm requests') : Welcome b requests' where
  constants := h.constants.perm (hperm.flatMap_right _)
  types := h.types.perm (hperm.flatMap_right _)
  functions := h.functions.perm (hperm.flatMap_right _)
  declared := fun r hr => h.declared r (hperm.mem_iff.mpr hr)

/-- The names of all code are among those of signatures, so they are distinct as well. -/
theorem Welcome.code_distinct (h : Welcome b requests) : ((requests.flatMap Request.codeEntries).map (·.1)).Nodup := by
  refine List.Nodup.sublist ?_ h.functions.distinct
  rw [List.map_flatMap, List.map_flatMap]
  exact List.Sublist.flatMap_right _ fun r _ => r.codeEntries_sublist

theorem Welcome.gather_perm (h : Welcome b requests) (hperm : requests.Perm requests')
    (htexts : requests.flatMap Request.texts = requests'.flatMap Request.texts)
    (htranslatables : requests.flatMap Request.translatables = requests'.flatMap Request.translatables) :
    b.gather requests = b.gather requests' := by
  unfold gather
  rw [insertAll_perm h.constants.distinct (hperm.flatMap_right _),
    insertAll_perm h.types.distinct (hperm.flatMap_right _), insertAll_perm h.functions.distinct (hperm.flatMap_right _),
    insertAll_perm h.code_distinct (hperm.flatMap_right _), htexts, htranslatables]

end

/-- What is in a package does not depend on the order of the requests. If a builder that is empty at first takes all
    of some requests, it takes them in any other order too, and as long as the literal texts among them keep their order
    and the texts to be translated keep theirs, both views of the package are the same, and so are their written
    forms. -/
theorem build_does_not_depend_on_order (requests requests' : List Request) (hperm : requests.Perm requests')
    (htexts : requests.flatMap Request.texts = requests'.flatMap Request.texts)
    (htranslatables : requests.flatMap Request.translatables = requests'.flatMap Request.translatables)
    (htaken : empty.TakesAll requests) :
    empty.TakesAll requests' ∧
    ∀ kind, (filled requests).build kind = (filled requests').build kind ∧
      ((filled requests).build kind).encode = ((filled requests').build kind).encode := by
  have hwelcome := takesAll_iff.mp htaken
  have hwelcome' := hwelcome.perm hperm
  have hfilled : filled requests = filled requests' := by
    calc filled requests
      _ = empty.gather requests := foldl_perform hwelcome
      _ = empty.gather requests' := hwelcome.gather_perm hperm htexts htranslatables
      _ = filled requests' := (foldl_perform hwelcome').symm
  exact ⟨takesAll_iff.mpr hwelcome', fun kind => by rw [hfilled]; exact ⟨rfl, rfl⟩⟩

/-- Code first: the texts it uses, then itself. -/
def codeFirst : List Request :=
  [.string "key", .function "Box.open" ⟨"open", [], ["Box"], []⟩ ⟨[⟨"b", "Box"⟩], ["ldlr #0 b Box", "ret"]⟩,
    .trString ⟨"menu", "Open"⟩, .string "ajar", .string "key",
    .batch [⟨"read", ⟨"read", [], [], []⟩, ⟨"read", .ofList [⟨"x", "int"⟩], [.ldlr 0 "x", .scope []]⟩⟩]]

def declarations : List Request :=
  [.type "Box" ⟨"Box", 8, 16, ["T"], [], [], [], [⟨"open", [], ["Box"], []⟩]⟩,
    .function "Box.close" ⟨"close", [], ["Box"], []⟩ ⟨[], ["ret"]⟩,
    .constant "one" ⟨"one", "int", ⟨1, 0⟩, ⟨0x3FF0000000000000⟩⟩]

theorem declarationsFirst_build_does_not_depend :
    empty.TakesAll (codeFirst ++ declarations) ∧ empty.TakesAll (declarations ++ codeFirst) ∧
    ∀ kind, (filled (codeFirst ++ declarations)).build kind = (filled (declarations ++ codeFirst)).build kind ∧
      ((filled (codeFirst ++ declarations)).build kind).encode =
        ((filled (declarations ++ codeFirst)).build kind).encode := by
  have htaken : empty.TakesAll (codeFirst ++ declarations) :=
    ⟨⟨_, rfl⟩, ⟨_, rfl⟩, ⟨_, rfl⟩, ⟨_, rfl⟩, ⟨_, rfl⟩, ⟨_, rfl⟩, ⟨_, rfl⟩, ⟨_, rfl⟩, ⟨_, rfl⟩, trivial⟩
  exact ⟨htaken, build_does_not_depend_on_order _ _ List.perm_append_comm rfl rfl htaken⟩

end Builder
end Backend
