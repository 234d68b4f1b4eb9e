import Backend.Catalog
import Backend.Indexed
import Backend.Source.Token
import Backend.Text.Split

/-! The symbol table: a tree of named scopes and members. Symbols are numbered in the order they are added,
    and the root, number 0, is an anonymous namespace. The names of the children of one symbol are distinct,
    apart from the empty name, which makes a symbol anonymous. -/

namespace Backend

/-- What a symbol stands for. -/
inductive SymbolKind where
  | nameSpace
  | type
  | typeParam
  | method
  | methodParam
  | field
  | other
deriving Repr, DecidableEq, Ord

namespace SymbolKind

def all : List SymbolKind := [.nameSpace, .type, .typeParam, .method, .methodParam, .field, .other]

def title : SymbolKind → String
  | .nameSpace => "Namespace"
  | .type => "Type"
  | .typeParam => "TypeParam"
  | .method => "Method"
  | .methodParam => "MethodParam"
  | .field => "Field"
  | .other => "Other"

def ofTitle? (s : String) : Option SymbolKind := all.find? (·.title = s)

/-- A parameter of a type or of a method. -/
def isParam : SymbolKind → Bool
  | .typeParam | .methodParam => true
  | _ => false

end SymbolKind

/-- The number of a symbol in its table. -/
abbrev SymbolId := Nat

/-- A symbol: its name, the token it was declared by, and its place in the tree. -/
structure Symbol where
  name : String
  kind : SymbolKind
  token : TokenId
  parent : Option SymbolId
  /-- All children, in the order they were added. -/
  children : List SymbolId
  /-- The children that have a name, under it. -/
  named : Catalog SymbolId

namespace Symbol

/-- A symbol without children. -/
def leaf (name : String) (kind : SymbolKind) (token : TokenId) (parent : Option SymbolId) : Symbol :=
  ⟨name, kind, token, parent, [], .empty⟩

def isAnonymous (s : Symbol) : Bool := s.name.isEmpty

/-- The symbol with one more child. -/
def addChild (s : Symbol) (name : String) (id : SymbolId) : Symbol :=
  { s with
    children := s.children ++ [id]
    named := if name.isEmpty then s.named else s.named.insert name id }

end Symbol

/-- All symbols of a program. -/
structure SymbolTable where
  symbols : Indexed Symbol

namespace SymbolTable

def root : SymbolId := 0

/-- The table that holds only the root. -/
def new (rootToken : TokenId) : SymbolTable := ⟨.ofList [.leaf "" .nameSpace rootToken none]⟩

def size (t : SymbolTable) : Nat := t.symbols.size

def get? (t : SymbolTable) (id : SymbolId) : Option Symbol := t.symbols.get? id

def name (t : SymbolTable) (id : SymbolId) : String := ((t.get? id).map (·.name)).getD ""

def children (t : SymbolTable) (id : SymbolId) : List SymbolId := ((t.get? id).map (·.children)).getD []

def parent? (t : SymbolTable) (id : SymbolId) : Option SymbolId := (t.get? id).bind (·.parent)

/-- The child of a symbol that has the given name. -/
def child? (t : SymbolTable) (id : SymbolId) (name : String) : Option SymbolId :=
  (t.get? id).bind (·.named.get? name)

/-- The symbols around a symbol, from its parent up to the root. A parent is added before its children, so the
    numbers descend on the way. -/
def ancestors (t : SymbolTable) (id : SymbolId) : List SymbolId :=
  match t.parent? id with
  | none => []
  | some p => if p < id then p :: ancestors t p else [p]
termination_by id

/-- The names from the root down to a symbol with points between them. Anonymous symbols leave no trace. -/
def fullName (t : SymbolTable) (id : SymbolId) : String :=
  String.ofList (Text.join '.' (((id :: t.ancestors id).reverse.map t.name).filter (!·.isEmpty) |>.map String.toList))

/-! ### Adding a symbol -/

/-- Why a symbol is not added. -/
inductive AddError where
  | noParent (parent : SymbolId)
  | duplicate (scope name : String)
  | full (fault : PositionFault)
deriving Repr, DecidableEq

def AddError.message : AddError → String
  | .noParent parent => s!"no symbol with id {parent}"
  | .duplicate scope name => s!"`{scope}` already contains a symbol named `{name}`"
  | .full fault => fault.message

/-- Adds a symbol as the last child of another. -/
def add (t : SymbolTable) (parent : SymbolId) (name : String) (kind : SymbolKind) (token : TokenId) :
    Except AddError (SymbolId × SymbolTable) :=
  match t.get? parent with
  | none => .error (.noParent parent)
  | some scope =>
    if !name.isEmpty && (scope.named.get? name).isSome then .error (.duplicate (t.fullName parent) name)
    else match t.symbols.push (.leaf name kind token (some parent)) with
      | .error fault => .error (.full fault)
      | .ok (id, symbols) => .ok (id, ⟨symbols.modify parent (·.addChild name id)⟩)

/-! ### Adding a symbol in place -/

/-- Work on a table that may be refused on the way. What has been done to the table by then stays done. -/
abbrev Editing := ExceptT AddError (StateM SymbolTable)

/-- Puts a symbol behind all others, linked to nothing. -/
def append (s : Symbol) : Editing SymbolId := fun t =>
  match t.symbols.push s with
  | .error fault => (.error (.full fault), t)
  | .ok (id, symbols) => (.ok id, ⟨symbols⟩)

/-- Changes a symbol. -/
def amend (id : SymbolId) (change : Symbol → Symbol) : Editing Unit := fun t =>
  (.ok (), ⟨t.symbols.modify id change⟩)

/-- Links a symbol to its parent: its number goes among the children, and its name, if it has one, finds it there. -/
def link (parent : SymbolId) (name : String) (id : SymbolId) : Editing Unit := do
  amend parent fun s => { s with children := s.children ++ [id] }
  unless name.isEmpty do
    amend parent fun s => { s with named := s.named.insert name id }

/-- Adds a symbol as the last child of another, step by step. -/
def addInPlace (parent : SymbolId) (name : String) (kind : SymbolKind) (token : TokenId) : Editing SymbolId := do
  let t ← get
  match t.get? parent with
  | none => throw (.noParent parent)
  | some scope =>
    if !name.isEmpty && (scope.named.get? name).isSome then
      throw (.duplicate (t.fullName parent) name)
    else
      let id ← append (.leaf name kind token (some parent))
      link parent name id
      return id

end SymbolTable
end Backend
