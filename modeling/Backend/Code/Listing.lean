import Backend.Code.Function

/-! The listing of a function's operations, one entry for each line and without indentation. A nested scope
    stands between two braces. -/

namespace Backend
namespace Function

mutual

/-- The entries of one operation. -/
def opEntries (f : Function) : Op → List (Except BadLocal String)
  | .scope body => .ok "\x7b" :: opsEntries f body ++ [.ok "\x7d"]
  | .comment text => (Op.comment text).textLines f
  | .declare index token => (Op.declare index token).textLines f
  | .ldlr index token => (Op.ldlr index token).textLines f
  | .plain opcode operand => (Op.plain opcode operand).textLines f

/-- The entries of the operations of a scope. -/
def opsEntries (f : Function) : List Op → List (Except BadLocal String)
  | [] => []
  | op :: ops => opEntries f op ++ opsEntries f ops

end

/-- All entries of a function, if every operation has its text. -/
def listing (f : Function) : Except BadLocal (List String) := (opsEntries f f.body).mapM id

end Function
end Backend
