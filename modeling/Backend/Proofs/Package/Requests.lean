import Backend.Package.Projection
import Mathlib.Logic.Relation

/-! Requests to a builder. A request that is refused leaves the builder as it is, a batch of functions may add many
    of them. Whatever is requested, the builder goes on by single changes, and a property that every change keeps is
    kept by every request. -/

namespace Backend

/-- What a builder can be asked to add. -/
inductive Request where
  | constant (name : String) (c : Constant)
  | type (name : String) (r : TypeRecord)
  | function (name : String) (signature : Signature) (code : CodeRecord)
  | string (text : String)
  | trString (t : Translatable)
  | batch (routines : List Routine)

namespace Builder

/-- How an addition ends that leaves the builder as it is if it is refused. -/
def settle (b : Builder) : Except DuplicateName Builder → Except ProjectError (Option Nat) × Builder
  | .ok b' => (.ok none, b')
  | .error e => (.error (.duplicate e), b)

/-- How a request ends, with the place of a literal text, and the builder after it. -/
def perform (b : Builder) : Request → Except ProjectError (Option Nat) × Builder
  | .constant name c => b.settle (b.addConstant name c)
  | .type name r => b.settle (b.addType name r)
  | .function name signature code => b.settle (b.addFunction name signature code)
  | .string text => (.ok (some (b.addString text).1), (b.addString text).2)
  | .trString t => (.ok none, b.addTrString t)
  | .batch routines => ((b.projectBatch routines).1.map fun _ => none, (b.projectBatch routines).2)

/-- The builder after requests, one after the other, the builder being empty at first. -/
def filled (requests : List Request) : Builder := requests.foldl (fun b r => (b.perform r).2) empty

/-! ### Changes -/

/-- The single changes of a builder. Names are free where they are used, and types come without methods. -/
inductive Change (b : Builder) : Builder → Prop where
  | constant {name : String} (c : Constant) (free : b.constants.contains name = false) :
    Change b { b with constants := b.constants.insert name c }
  | type {name : String} {r : TypeRecord} (free : b.types.contains name = false) (bare : r.methods = []) :
    Change b { b with types := b.types.insert name r }
  | function {name : String} (signature : Signature) (code : CodeRecord) (free : b.hasFunction name = false) :
    Change b { b with functions := b.functions.insert name signature, code := b.code.insert name code }
  | string (text : String) : Change b { b with strings := (Pool.intern b.strings text).2 }
  | trString (t : Translatable) : Change b { b with trStrings := (Pool.intern b.trStrings t).2 }

/-- One builder comes from another by changes. -/
def Changes : Builder → Builder → Prop := Relation.ReflTransGen Change

section
variable {b b' : Builder}

theorem insertNew_eq_ok {α : Type} {item : PackageItem} {c c' : Catalog α} {name : String} {value : α}
    (h : insertNew item c name value = .ok c') : c.contains name = false ∧ c' = c.insert name value := by
  unfold insertNew at h
  split at h
  · cases h
  · rename_i hfree
    cases h
    exact ⟨Bool.not_eq_true _ ▸ hfree, rfl⟩

theorem map_eq_ok {ε α β : Type} {x : Except ε α} {f : α → β} {y : β} (h : x.map f = .ok y) :
    ∃ a, x = .ok a ∧ f a = y := by
  cases x with
  | error e => cases h
  | ok a =>
    cases h
    exact ⟨a, rfl, rfl⟩

theorem change_of_addConstant {name : String} {c : Constant} (h : b.addConstant name c = .ok b') : Change b b' := by
  obtain ⟨constants, hinsert, rfl⟩ := map_eq_ok h
  obtain ⟨hfree, rfl⟩ := insertNew_eq_ok hinsert
  exact .constant c hfree

theorem change_of_addType {name : String} {r : TypeRecord} (h : b.addType name r = .ok b') : Change b b' := by
  obtain ⟨types, hinsert, rfl⟩ := map_eq_ok h
  obtain ⟨hfree, rfl⟩ := insertNew_eq_ok hinsert
  exact .type hfree rfl

theorem change_of_addFunction {name : String} {signature : Signature} {code : CodeRecord}
    (h : b.addFunction name signature code = .ok b') : Change b b' := by
  unfold addFunction at h
  split at h
  · cases h
  · rename_i hfree
    cases h
    exact .function signature code (Bool.not_eq_true _ ▸ hfree)

theorem changes_settle {x : Except DuplicateName Builder} (h : ∀ b', x = .ok b' → Change b b') :
    Changes b (b.settle x).2 := by
  cases x with
  | error e => exact .refl
  | ok b' => exact .single (h b' rfl)

/-- Functions before one that is refused stay added. -/
theorem changes_addEach (b : Builder) (entries : List (String × Signature × CodeRecord)) :
    Changes b (b.addEach entries).2 := by
  induction entries generalizing b with
  | nil => exact .refl
  | cons e rest ih =>
    obtain ⟨name, signature, code⟩ := e
    unfold addEach
    split
    · exact .refl
    · rename_i b' hadd
      exact .head (change_of_addFunction hadd) (ih b')

theorem changes_projectBatch (b : Builder) (batch : List Routine) : Changes b (b.projectBatch batch).2 := by
  unfold projectBatch
  split
  · exact .refl
  · rename_i entries _
    exact changes_addEach b entries

theorem changes_perform (b : Builder) (r : Request) : Changes b (b.perform r).2 := by
  cases r with
  | constant name c => exact changes_settle fun _ => change_of_addConstant
  | type name r => exact changes_settle fun _ => change_of_addType
  | function name signature code => exact changes_settle fun _ => change_of_addFunction
  | string text => exact .single (.string text)
  | trString t => exact .single (.trString t)
  | batch routines => exact changes_projectBatch b routines

/-- What holds of the empty builder and is kept by every change holds after any requests. -/
theorem filled_induction {P : Builder → Prop} (hempty : P empty) (hchange : ∀ {b b'}, Change b b' → P b → P b')
    (requests : List Request) : P (filled requests) := by
  have hchanges : ∀ {b b'}, Changes b b' → P b → P b' := by
    intro b b' h hb
    induction h with
    | refl => exact hb
    | tail _ hstep ih => exact hchange hstep ih
  exact List.foldlRecOn requests _ hempty fun b hb r _ => hchanges (changes_perform b r) hb

end

end Builder
end Backend
