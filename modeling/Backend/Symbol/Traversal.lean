import Backend.Symbol.Table

/-! Visiting all symbols of a table: each before its children, and children in the order they were added. The
    walk keeps the symbols still to be visited on a stack. -/

namespace Backend
namespace SymbolTable

/-- The symbols visited in `steps` steps by a walk that still has `stack` before it. -/
def walk (t : SymbolTable) : Nat → List SymbolId → List SymbolId
  | 0, _ => []
  | _ + 1, [] => []
  | steps + 1, id :: stack => id :: t.walk steps (t.children id ++ stack)

/-- All symbols in visiting order. A walk visits no symbol twice, so it takes as many steps as there are
    symbols. -/
def visited (t : SymbolTable) : List SymbolId := t.walk t.size [root]

/-- The errors of all tokens of the table, in visiting order. -/
def diagnostics (t : SymbolTable) (pool : TokenPool) : List Diagnostic :=
  t.visited.filterMap fun id => (t.get? id).bind fun s => pool.errorOf? s.token

end SymbolTable
end Backend
