import Backend.Source.Diagnostic

/-! Tokens: pieces of source text that can be found faulty once. Everything that holds a token shares its
    error, so tokens live in a pool and are held by their number in it. The first error of a token stays. -/

namespace Backend

/-- A piece of source text, the place it was taken from if any, and its error if it has one. -/
structure Token where
  text : String
  location : Option Location
  error : Option Diagnostic
deriving Repr

namespace Token

/-- A token that stands in no file. -/
def synthetic (text : String) : Token := ⟨text, none, none⟩

/-- The token of a span of a file; `none` if the span is no piece of the contents. -/
def ofSpan? (file : SourceFile) (span : Span) : Option Token :=
  (file.text? span).map fun text => ⟨text, some ⟨file, span⟩, none⟩

/-- The error that a message about the token is. -/
def errorOf (t : Token) (message : String) : Diagnostic := ⟨.error, t.location, message⟩

/-- The token as it is described, without the parts it does not have. -/
def described (t : Token) : String :=
  let location := match t.location with
    | some l => ", location: " ++ l.described
    | none => ""
  let error := match t.error with
    | some d => ", error: " ++ Text.quoted d.message
    | none => ""
  "Token \x7b text: " ++ Text.quoted t.text ++ location ++ error ++ " \x7d"

end Token

/-- The number of a token in its pool. -/
abbrev TokenId := Nat

/-- All tokens made so far. -/
structure TokenPool where
  tokens : Array Token
deriving Repr

namespace TokenPool

def empty : TokenPool := ⟨#[]⟩

def get? (pool : TokenPool) (id : TokenId) : Option Token := pool.tokens[id]?

/-- Makes a token, different from all made before. -/
def create (pool : TokenPool) (token : Token) : TokenId × TokenPool :=
  (pool.tokens.size, ⟨pool.tokens.push token⟩)

/-- The error of a token. -/
def errorOf? (pool : TokenPool) (id : TokenId) : Option Diagnostic := (pool.get? id).bind (·.error)

/-- Finds a token faulty. Only the first message is kept; the answer is whether it was this one. -/
def addError (pool : TokenPool) (id : TokenId) (message : String) : Bool × TokenPool :=
  match pool.get? id with
  | none => (false, pool)
  | some token =>
    if token.error.isSome then (false, pool)
    else (true, ⟨pool.tokens.setIfInBounds id { token with error := some (token.errorOf message) }⟩)

end TokenPool
end Backend
