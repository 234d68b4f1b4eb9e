import Backend.Package.Encoding
import Backend.Proofs.Package.Projection
import Backend.Proofs.Package.Requests

/-! What a header gives away. Of a request only a part is visible in headers: texts are not, nor is the code of a
    function or the methods of a type, and of a function that is projected only whether its slots are declared. Two
    builders that hold the same constants, types and signatures answer alike whatever looks alike, so nothing else
    ever comes to light. -/

namespace Backend

/-! ### What is visible -/

/-- The visible part of a request. -/
inductive Visible where
  | constant (name : String) (c : Constant)
  | type (name : String) (bare : TypeRecord)
  | function (name : String) (signature : Signature)
  | batch (routines : List (String × Signature × Except UndeclaredLocal Unit))

def Routine.visible (r : Routine) : String × Signature × Except UndeclaredLocal Unit :=
  (r.fullName, r.signature, r.function.checkLocals)

/-- What is visible of a request, if anything is. -/
def Request.visible? : Request → Option Visible
  | .constant name c => some (.constant name c)
  | .type name r => some (.type name { r with methods := [] })
  | .function name signature _ => some (.function name signature)
  | .string _ => none
  | .trString _ => none
  | .batch routines => some (.batch (routines.map Routine.visible))

namespace Builder

/-- The visible requests among some that are made one after the other, each with how it ends. -/
def answers (b : Builder) : List Request → List (Visible × Except ProjectError (Option Nat))
  | [] => []
  | r :: rest => (r.visible?.map (·, (b.perform r).1)).toList ++ answers (b.perform r).2 rest

/-- The builder after requests. -/
def after (b : Builder) (requests : List Request) : Builder := requests.foldl (fun b r => (b.perform r).2) b

/-- The headers of both builders are the same. -/
structure Alike (b b' : Builder) : Prop where
  constants : b.constants = b'.constants
  types : b.types = b'.types
  functions : b.functions = b'.functions

namespace Alike
variable {b b' b'' : Builder}

theorem refl (b : Builder) : Alike b b := ⟨rfl, rfl, rfl⟩

theorem symm (h : Alike b b') : Alike b' b := ⟨h.constants.symm, h.types.symm, h.functions.symm⟩

theorem trans (h : Alike b b') (h' : Alike b' b'') : Alike b b'' :=
  ⟨h.constants.trans h'.constants, h.types.trans h'.types, h.functions.trans h'.functions⟩

theorem hasFunction (h : Alike b b') (name : String) : b.hasFunction name = b'.hasFunction name := by
  rw [Builder.hasFunction, h.functions]
  rfl

theorem header (h : Alike b b') : b.build .header = b'.build .header := by
  show b.buildHeader = b'.buildHeader
  rw [buildHeader, buildHeader, h.constants, h.types, h.functions]

end Alike

/-! ### Requests for one thing -/

section
variable {b b' : Builder}

/-- Two outcomes that cannot be told apart: the answers are the same and the builders alike. -/
def SameOutcome {ε α : Type} (x y : Except ε α × Builder) : Prop := x.1 = y.1 ∧ Alike x.2 y.2

/-- An addition to a catalog that both builders have is refused by both or taken by both. -/
theorem sameOutcome_settle {α : Type} {x : Except DuplicateName α} {put put' : α → Builder} (h : Alike b b')
    (hput : ∀ a, Alike (put a) (put' a)) : SameOutcome (b.settle (x.map put)) (b'.settle (x.map put')) := by
  cases x with
  | error e => exact ⟨rfl, h⟩
  | ok a => exact ⟨rfl, hput a⟩

theorem sameOutcome_addConstant (h : Alike b b') (name : String) (c : Constant) :
    SameOutcome (b.settle (b.addConstant name c)) (b'.settle (b'.addConstant name c)) := by
  rw [addConstant, addConstant, h.constants]
  exact sameOutcome_settle h fun _ => ⟨rfl, h.types, h.functions⟩

theorem sameOutcome_addType (h : Alike b b') (name : String) {r r' : TypeRecord}
    (hr : { r with methods := [] } = { r' with methods := [] }) :
    SameOutcome (b.settle (b.addType name r)) (b'.settle (b'.addType name r')) := by
  rw [addType, addType, h.types, hr]
  exact sameOutcome_settle h fun _ => ⟨h.constants, rfl, h.functions⟩

/-- Whether a function is taken does not depend on its code. -/
theorem addFunction_alike (h : Alike b b') (name : String) (signature : Signature) (code code' : CodeRecord) :
    (∃ e, b.addFunction name signature code = .error e ∧ b'.addFunction name signature code' = .error e) ∨
    ∃ a a', b.addFunction name signature code = .ok a ∧ b'.addFunction name signature code' = .ok a' ∧ Alike a a' := by
  unfold addFunction
  rw [h.hasFunction]
  split
  · exact Or.inl ⟨_, rfl, rfl⟩
  · refine Or.inr ⟨_, _, rfl, rfl, h.constants, h.types, ?_⟩
    rw [h.functions]

theorem sameOutcome_addFunction (h : Alike b b') (name : String) (signature : Signature) (code code' : CodeRecord) :
    SameOutcome (b.settle (b.addFunction name signature code)) (b'.settle (b'.addFunction name signature code')) := by
  rcases addFunction_alike h name signature code code' with ⟨e, he, he'⟩ | ⟨a, a', ha, ha', halike⟩
  · rw [he, he']
    exact ⟨rfl, h⟩
  · rw [ha, ha']
    exact ⟨rfl, halike⟩

/-! ### Batches -/

/-- Name and signature of what is to be added. -/
def heading (entry : String × Signature × CodeRecord) : String × Signature := (entry.1, entry.2.1)

theorem Offence.visible {names : List String} {r r' : Routine} {e : ProjectError} (h : Alike b b')
    (hr : r.visible = r'.visible) (he : Offence b names r e) : Offence b' names r' e := by
  obtain ⟨hname, -, hcheck⟩ : r.fullName = r'.fullName ∧ r.signature = r'.signature ∧ _ = _ := by
    simpa [Routine.visible] using hr
  cases he with
  | locals he => exact .locals (hcheck ▸ he)
  | taken hok ht =>
    rw [hname, h.hasFunction] at ht
    rw [hname]
    exact .taken (hcheck ▸ hok) ht

theorem Fits.visible {names : List String} {r r' : Routine} (h : Alike b b') (hr : r.visible = r'.visible)
    (hfits : Fits b names r) : Fits b' names r' := by
  obtain ⟨hname, -, hcheck⟩ : r.fullName = r'.fullName ∧ r.signature = r'.signature ∧ _ = _ := by
    simpa [Routine.visible] using hr
  exact ⟨hcheck ▸ hfits.locals, h.hasFunction r'.fullName ▸ hname ▸ hfits.free, hname ▸ hfits.fresh⟩

theorem map_eq_map {ε α β : Type} {f : α → β} {x y : Except ε α} (h : x.map f = y.map f) :
    (∃ e, x = .error e ∧ y = .error e) ∨ ∃ a a', x = .ok a ∧ y = .ok a' ∧ f a = f a' := by
  cases x with
  | error e =>
    cases y with
    | error e' =>
      cases h
      exact Or.inl ⟨e, rfl, rfl⟩
    | ok a' => cases h
  | ok a =>
    cases y with
    | error e' => cases h
    | ok a' => exact Or.inr ⟨a, a', rfl, rfl, Except.ok.inj h⟩

theorem projected_alike (names : List String) {r r' : Routine} (h : Alike b b') (hr : r.visible = r'.visible) :
    (b.projected names r).map heading = (b'.projected names r').map heading := by
  rcases fits_or_offence b names r with hfits | ⟨e, he⟩
  · obtain ⟨code, -, hp⟩ := projected_of_fits hfits
    obtain ⟨code', -, hp'⟩ := projected_of_fits (hfits.visible h hr)
    have hheading : (r.fullName, r.signature) = (r'.fullName, r'.signature) := congrArg (fun v => (v.1, v.2.1)) hr
    rw [hp, hp']
    exact congrArg Except.ok hheading
  · rw [projected_of_offence he, projected_of_offence (he.visible h hr)]

theorem projectedAll_alike (h : Alike b b') (names : List String) {batch batch' : List Routine}
    (hb : batch.map Routine.visible = batch'.map Routine.visible) :
    (b.projectedAll names batch).map (·.map heading) = (b'.projectedAll names batch').map (·.map heading) := by
  induction batch generalizing names batch' with
  | nil =>
    obtain rfl : batch' = [] := List.map_eq_nil_iff.mp hb.symm
    rfl
  | cons r rest ih =>
    cases batch' with
    | nil => cases hb
    | cons r' rest' =>
      obtain ⟨hr, hrest⟩ := List.cons.inj hb
      have hname : r.fullName = r'.fullName := congrArg (·.1) hr
      have hone := projected_alike names h hr
      have hlater := ih (r.fullName :: names) hrest
      rw [projectedAll, projectedAll, ← hname]
      rcases map_eq_map hone with ⟨e, he, he'⟩ | ⟨entry, entry', hentry, hentry', hheading⟩
      · rw [he, he']
        rfl
      · rw [hentry, hentry']
        rcases map_eq_map hlater with ⟨e, he, he'⟩ | ⟨entries, entries', hentries, hentries', hheadings⟩
        · rw [he, he']
          rfl
        · rw [hentries, hentries']
          exact congrArg Except.ok (congrArg₂ List.cons hheading hheadings)

theorem sameOutcome_addEach (h : Alike b b') {entries entries' : List (String × Signature × CodeRecord)}
    (he : entries.map heading = entries'.map heading) : SameOutcome (b.addEach entries) (b'.addEach entries') := by
  induction entries generalizing b b' entries' with
  | nil =>
    obtain rfl : entries' = [] := List.map_eq_nil_iff.mp he.symm
    exact ⟨rfl, h⟩
  | cons e rest ih =>
    cases entries' with
    | nil => cases he
    | cons e' rest' =>
      obtain ⟨name, signature, code⟩ := e
      obtain ⟨name', signature', code'⟩ := e'
      obtain ⟨hhead, hrest⟩ := List.cons.inj he
      cases hhead
      rw [addEach, addEach]
      rcases addFunction_alike h name signature code code' with ⟨e, he, he'⟩ | ⟨a, a', ha, ha', halike⟩
      · rw [he, he']
        exact ⟨rfl, h⟩
      · rw [ha, ha']
        exact ih halike hrest

theorem sameOutcome_projectBatch (h : Alike b b') {batch batch' : List Routine}
    (hb : batch.map Routine.visible = batch'.map Routine.visible) :
    SameOutcome (b.projectBatch batch) (b'.projectBatch batch') := by
  have hall := projectedAll_alike h [] hb
  unfold projectBatch
  rcases map_eq_map hall with ⟨e, he, he'⟩ | ⟨entries, entries', hentries, hentries', hheadings⟩
  · rw [he, he']
    exact ⟨rfl, h⟩
  · rw [hentries, hentries']
    exact sameOutcome_addEach h hheadings

end

/-! ### One request -/

section
variable {b b' : Builder} {r r' : Request}

/-- A request of which nothing is visible changes nothing that is. -/
theorem alike_of_hidden (b : Builder) (h : r.visible? = none) : Alike (b.perform r).2 b := by
  cases r with
  | constant | type | function | batch => cases h
  | string text => exact ⟨rfl, rfl, rfl⟩
  | trString t => exact ⟨rfl, rfl, rfl⟩

/-- Requests that look alike end alike. -/
theorem sameOutcome_perform {v : Visible} (h : Alike b b') (hr : r.visible? = some v) (hr' : r'.visible? = some v) :
    SameOutcome (b.perform r) (b'.perform r') := by
  cases r with
  | string | trString => cases hr
  | constant name c =>
    cases hr
    cases r' <;> cases hr'
    exact sameOutcome_addConstant h name c
  | type name r =>
    cases hr
    cases r' with
    | type name' r' =>
      obtain ⟨rfl, hbare⟩ := Visible.type.inj (Option.some.inj hr')
      exact sameOutcome_addType h name' hbare.symm
    | _ => cases hr'
  | function name signature code =>
    cases hr
    cases r' <;> cases hr'
    exact sameOutcome_addFunction h name signature code _
  | batch routines =>
    cases hr
    cases r' with
    | batch routines' =>
      have hb := Visible.batch.inj (Option.some.inj hr')
      obtain ⟨hanswer, halike⟩ := sameOutcome_projectBatch h hb.symm
      exact ⟨congrArg (Except.map fun _ => none) hanswer, halike⟩
    | _ => cases hr'

end

/-! ### All requests -/

section
variable {b b' : Builder} {requests requests' : List Request}

theorem answers_hidden (b : Builder) (h : ∀ r ∈ requests, r.visible? = none) (rest : List Request) :
    b.answers (requests ++ rest) = (b.after requests).answers rest ∧ Alike (b.after requests) b := by
  induction requests generalizing b with
  | nil => exact ⟨rfl, .refl b⟩
  | cons r requests ih =>
    obtain ⟨hr, hrequests⟩ := List.forall_mem_cons.mp h
    obtain ⟨hanswers, halike⟩ := ih (b.perform r).2 hrequests
    refine ⟨?_, halike.trans (alike_of_hidden b hr)⟩
    rw [List.cons_append, answers, hr]
    exact hanswers

/-- Two runs of requests that look alike give the same answers and leave builders that are alike. The runs are
    brought together at each visible request of the first, those that are hidden being made in between. -/
theorem run_alike (h : Alike b b')
    (hvisible : requests.filterMap Request.visible? = requests'.filterMap Request.visible?) :
    b.answers requests = b'.answers requests' ∧ Alike (b.after requests) (b'.after requests') := by
  induction requests generalizing b b' requests' with
  | nil =>
    have hhidden : ∀ r ∈ requests', r.visible? = none := List.filterMap_eq_nil_iff.mp hvisible.symm
    obtain ⟨hanswers, halike⟩ := answers_hidden b' hhidden []
    rw [List.append_nil] at hanswers
    exact ⟨hanswers.symm, h.trans halike.symm⟩
  | cons r requests ih =>
    cases hr : r.visible? with
    | none =>
      rw [List.filterMap_cons_none hr] at hvisible
      obtain ⟨hanswers, halike⟩ := ih ((alike_of_hidden b hr).trans h) hvisible
      refine ⟨?_, halike⟩
      rw [answers, hr]
      exact hanswers
    | some v =>
      rw [List.filterMap_cons_some hr] at hvisible
      obtain ⟨hidden, r', later, rfl, hhidden, hr', hlater⟩ := List.filterMap_eq_cons_iff.mp hvisible.symm
      obtain ⟨hskip, hskipped⟩ := answers_hidden b' hhidden (r' :: later)
      obtain ⟨hanswer, hperformed⟩ := sameOutcome_perform (h.trans hskipped.symm) hr hr'
      obtain ⟨hanswers, halike⟩ := ih hperformed hlater.symm
      refine ⟨?_, ?_⟩
      · rw [hskip, answers, answers, hr, hr', hanswer, hanswers]
      · rw [after, after, List.foldl_append]
        exact halike

end

/-- A header gives away nothing but what is visible of the requests. Two runs from the empty builder whose visible
    requests are the same, whatever texts, code and methods come with them, answer these requests in the same way,
    with the same errors, and end with the same header and the same text of it. -/
theorem header_gives_away_visible_only (requests requests' : List Request)
    (h : requests.filterMap Request.visible? = requests'.filterMap Request.visible?) :
    empty.answers requests = empty.answers requests' ∧
    (filled requests).build .header = (filled requests').build .header ∧
    ((filled requests).build .header).encode = ((filled requests').build .header).encode := by
  obtain ⟨hanswers, halike⟩ := run_alike (.refl empty) h
  have hheader : (filled requests).build .header = (filled requests').build .header := halike.header
  exact ⟨hanswers, hheader, by rw [hheader]⟩

/-- A function that reads its slot and says so in a comment. -/
def reader (comment : String) : Function :=
  ⟨"read", .ofList [⟨"x", "int"⟩], [.comment comment, .ldlr 0 "x", .scope []]⟩

/-- A run with much that stays hidden, and three requests that are refused. -/
def fullRun : List Request :=
  [.string "key", .type "Box" ⟨"Box", 8, 16, ["T"], [], [], [], [⟨"open", [], ["Box"], []⟩]⟩,
    .function "Box.open" ⟨"open", [], ["Box"], []⟩ ⟨[⟨"b", "Box"⟩], ["ldlr #0 b Box", "ret"]⟩,
    .trString ⟨"menu", "Open"⟩, .function "Box.open" ⟨"open", [], [], []⟩ ⟨[], ["ret"]⟩,
    .constant "one" ⟨"one", "int", ⟨1, 0⟩, ⟨0x3FF0000000000000⟩⟩,
    .batch [⟨"read", ⟨"read", [], [], []⟩, reader "uses the key"⟩], .string "key",
    .type "Box" ⟨"Box", 1, 1, [], [], [], [], []⟩, .batch [⟨"read", ⟨"read", [], [], []⟩, reader ""⟩]]

/-- A run that looks like it. -/
def bareRun : List Request :=
  [.type "Box" ⟨"Box", 8, 16, ["T"], [], [], [], []⟩, .function "Box.open" ⟨"open", [], ["Box"], []⟩ ⟨[], []⟩,
    .function "Box.open" ⟨"open", [], [], []⟩ ⟨[], []⟩, .constant "one" ⟨"one", "int", ⟨1, 0⟩, ⟨0x3FF0000000000000⟩⟩,
    .batch [⟨"read", ⟨"read", [], [], []⟩, ⟨"", .ofList [], []⟩⟩],
    .type "Box" ⟨"Box", 1, 1, [], [], [], [], [⟨"close", [], [], []⟩]⟩,
    .batch [⟨"read", ⟨"read", [], [], []⟩, reader ""⟩], .trString ⟨"", ""⟩]

theorem bareRun_header_gives_away :
    fullRun.filterMap Request.visible? = bareRun.filterMap Request.visible? ∧
    empty.answers fullRun = empty.answers bareRun ∧
    (filled fullRun).build .header = (filled bareRun).build .header ∧
    ((filled fullRun).build .header).encode = ((filled bareRun).build .header).encode :=
  ⟨rfl, header_gives_away_visible_only fullRun bareRun rfl⟩

end Builder
end Backend
