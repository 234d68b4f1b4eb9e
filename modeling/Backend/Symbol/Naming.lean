import Backend.Journal
import Backend.Symbol.Traversal

/-! The naming rules. A symbol must not have the name of the scope it is in, and a parameter must not have the
    name of a type parameter of a scope further out, as far as the scopes between them can have parameters.
    What breaks a rule is noted on the symbol's token. -/

namespace Backend
namespace Naming

/-- The rules. -/
inductive Rule where
  | sameAsParent
  | shadowsParam
deriving Repr, DecidableEq

def Rule.message : Rule → String
  | .sameAsParent => "name must not be same as parent scope"
  | .shadowsParam => "a parent scope may not contain a type parameter with the same name"

/-- A scope that can have parameters: it has a name and is no namespace. -/
def isGeneric (t : SymbolTable) (id : SymbolId) : Bool :=
  match t.get? id with
  | some s => !s.isAnonymous && s.kind ≠ .nameSpace
  | none => false

/-- A symbol has a type parameter of the given name among its children. -/
def hasTypeParam (t : SymbolTable) (id : SymbolId) (name : String) : Bool :=
  match t.child? id name with
  | some c => ((t.get? c).map (·.kind)) = some .typeParam
  | none => false

/-- The scopes outside of a declaring scope whose type parameters its parameters must not repeat: its
    ancestors up to the first that cannot have parameters. -/
def outerScopes (t : SymbolTable) (declaring : SymbolId) : List SymbolId :=
  if isGeneric t declaring then (t.ancestors declaring).takeWhile (isGeneric t) else []

/-- The rules that a symbol breaks, one entry for each time it does. Anonymous symbols break none. -/
def broken (t : SymbolTable) (id : SymbolId) : List Rule :=
  match t.get? id with
  | none => []
  | some s =>
    match s.parent with
    | none => []
    | some parent =>
      if s.isAnonymous then []
      else
        (if t.name parent = s.name then [.sameAsParent] else []) ++
          (if s.kind.isParam then
            ((outerScopes t parent).filter (hasTypeParam t · s.name)).map fun _ => .shadowsParam
          else [])

/-! ### Verification -/

/-- The table, the tokens its symbols hold, and what has been written down. -/
structure Progress where
  table : SymbolTable
  pool : TokenPool
  entries : List Journal.Entry

/-- Notes one broken rule on the token of a symbol. A token that is faulty already stays as it is. -/
def report (s : Symbol) (p : Progress) (rule : Rule) : Progress :=
  match p.pool.addError s.token rule.message with
  | (true, pool) =>
    { p with
      pool := pool
      entries := p.entries ++ [.note ⟨"naming error",
        [("symbol.name()", .text s.name), ("message", .text rule.message)]⟩] }
  | (false, pool) => { p with pool := pool }

/-- Notes what a symbol breaks. -/
def verifySymbol (p : Progress) (id : SymbolId) : Progress :=
  match p.table.get? id with
  | none => p
  | some s => (broken p.table id).foldl (report s) p

/-- Checks the names of a table, and writes down that it does. -/
def verify (t : SymbolTable) (pool : TokenPool) : Progress :=
  let heading : Journal.Entry := .enter ⟨"verify_header", [("table.len()", .integer t.size)]⟩
  let p := t.visited.foldl verifySymbol ⟨t, pool, [heading]⟩
  { p with entries := p.entries ++ [.leave] }

end Naming
end Backend
