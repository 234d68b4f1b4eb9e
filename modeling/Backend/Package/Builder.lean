import Backend.Journal
import Backend.Package.Basic

/-! Building packages. A builder collects constants, types and functions under their full names, each name
    once, and two pools of texts, each text once and at the place it first got. -/

namespace Backend

/-- Puts a value into a pool if it is not there, and gives its place. -/
def Pool.intern {α : Type} [DecidableEq α] (pool : List α) (a : α) : Nat × List α :=
  match pool.idxOf? a with
  | some i => (i, pool)
  | none => (pool.length, pool ++ [a])

/-- What is added under a name. -/
inductive PackageItem where
  | constant
  | type
  | function
deriving Repr, DecidableEq

def PackageItem.word : PackageItem → String
  | .constant => "constant"
  | .type => "type"
  | .function => "function"

/-- The name is taken. -/
structure DuplicateName where
  item : PackageItem
  name : String
deriving Repr, DecidableEq

def DuplicateName.message (e : DuplicateName) : String := "duplicate " ++ e.item.word ++ " `" ++ e.name ++ "`"

/-- What has been collected for a package. -/
structure Builder where
  constants : Catalog Constant
  types : Catalog TypeRecord
  functions : Catalog Signature
  code : Catalog CodeRecord
  strings : List String
  trStrings : List Translatable

namespace Builder

def empty : Builder := ⟨.empty, .empty, .empty, .empty, [], []⟩

/-- A catalog with one more entry, under a name that is free. -/
def insertNew {α : Type} (item : PackageItem) (c : Catalog α) (name : String) (value : α) :
    Except DuplicateName (Catalog α) :=
  if c.contains name then .error ⟨item, name⟩ else .ok (c.insert name value)

def addConstant (b : Builder) (name : String) (c : Constant) : Except DuplicateName Builder :=
  (insertNew .constant b.constants name c).map fun constants => { b with constants := constants }

/-- Adds a type without its methods, which are functions of the package under names of their own. -/
def addType (b : Builder) (name : String) (r : TypeRecord) : Except DuplicateName Builder :=
  (insertNew .type b.types name { r with methods := [] }).map fun types => { b with types := types }

/-- What is written down when a type is added: that its methods are left out, if it has any. -/
def typeEntries (r : TypeRecord) : List Journal.Entry :=
  if r.methods.isEmpty then []
  else [.note ⟨"dropping nested methods",
    [("info.name", .text r.name), ("info.methods.len()", .integer r.methods.length)]⟩]

def hasFunction (b : Builder) (name : String) : Bool := b.functions.contains name

/-- Adds a function: its signature and its code. -/
def addFunction (b : Builder) (name : String) (signature : Signature) (code : CodeRecord) :
    Except DuplicateName Builder :=
  if b.hasFunction name then .error ⟨.function, name⟩
  else .ok { b with functions := b.functions.insert name signature, code := b.code.insert name code }

/-- Adds a literal text and gives its place in the pool. -/
def addString (b : Builder) (text : String) : Nat × Builder :=
  let (i, strings) := Pool.intern b.strings text
  (i, { b with strings := strings })

/-- Adds a text to be translated. -/
def addTrString (b : Builder) (t : Translatable) : Builder :=
  { b with trStrings := (Pool.intern b.trStrings t).2 }

/-! ### The two views -/

/-- A catalog, or nothing if it is empty. -/
def present {α : Type} (c : Catalog α) : Option (Catalog α) := if c.isEmpty then none else some c

/-- A pool, or nothing if it is empty. -/
def presentPool {α : Type} (pool : List α) : Option (List α) := if pool.isEmpty then none else some pool

/-- Constants, types and signatures. -/
def buildHeader (b : Builder) : Package :=
  { Package.empty with
    constants := present b.constants
    types := present b.types
    functions := present b.functions }

/-- All that was collected. -/
def buildObject (b : Builder) : Package :=
  { b.buildHeader with
    strings := presentPool b.strings
    trStrings := presentPool b.trStrings
    code := present b.code }

def build (b : Builder) : PackageKind → Package
  | .header => b.buildHeader
  | .object => b.buildObject

end Builder
end Backend
