import Backend.Json.Lexeme

/-! Reading a JSON text. Its lexemes are taken one by one; the arrays and objects that are open are kept on a
    stack, so that a value can be nested as deep as the text is long. -/

namespace Backend
namespace Json

/-- An array or object around the value being read. What comes before it is kept last first. -/
inductive Frame where
  | array (before : List Json)
  | object (before : List (Option String × Json)) (name : Option String)
deriving Repr

/-- What is read next. -/
inductive Expecting where
  /-- A value. -/
  | value
  /-- The first item of an array, or its end. -/
  | firstItem
  /-- The first name of an object, or its end. -/
  | firstName
  /-- The next name of an object. -/
  | name (before : List (Option String × Json))
  /-- The colon after a name. -/
  | colon (before : List (Option String × Json)) (name : Option String)
  /-- What follows a complete value. -/
  | after (v : Json)
deriving Repr

/-- A reader between two lexemes. -/
structure Reader where
  stack : List Frame
  expecting : Expecting
deriving Repr

namespace Reader

def start : Reader := ⟨[], .value⟩

/-- The first lexeme of a value. -/
def beginValue (stack : List Frame) : Lexeme → Option Reader
  | .null => some ⟨stack, .after .null⟩
  | .bool b => some ⟨stack, .after (.bool b)⟩
  | .number lexeme => some ⟨stack, .after (.number lexeme)⟩
  | .string s => some ⟨stack, .after (.string s)⟩
  | .openArray => some ⟨.array [] :: stack, .firstItem⟩
  | .openObject => some ⟨stack, .firstName⟩
  | _ => none

/-- The lexeme after a complete value. -/
def continueValue (stack : List Frame) (v : Json) (l : Lexeme) : Option Reader :=
  match stack, l with
  | .array before :: rest, .comma => some ⟨.array (v :: before) :: rest, .value⟩
  | .array before :: rest, .closeArray => some ⟨rest, .after (.array (v :: before).reverse)⟩
  | .object before name :: rest, .comma => some ⟨rest, .name ((name, v) :: before)⟩
  | .object before name :: rest, .closeObject => some ⟨rest, .after (.object ((name, v) :: before).reverse)⟩
  | _, _ => none

/-- One lexeme further. -/
def step (r : Reader) (l : Lexeme) : Option Reader :=
  match r.expecting with
  | .value => beginValue r.stack l
  | .firstItem =>
    match r.stack, l with
    | .array [] :: rest, .closeArray => some ⟨rest, .after (.array [])⟩
    | stack, l => beginValue stack l
  | .firstName =>
    match l with
    | .closeObject => some ⟨r.stack, .after (.object [])⟩
    | .string name => some ⟨r.stack, .colon [] name⟩
    | _ => none
  | .name before =>
    match l with
    | .string name => some ⟨r.stack, .colon before name⟩
    | _ => none
  | .colon before name =>
    match l with
    | .colon => some ⟨.object before name :: r.stack, .value⟩
    | _ => none
  | .after v => continueValue r.stack v l

/-- The value of a text that ends here. -/
def finish (r : Reader) : Option Json :=
  match r.stack, r.expecting with
  | [], .after v => some v
  | _, _ => none

end Reader

/-- The value of a list of lexemes. -/
def ofLexemes? (ls : List Lexeme) : Option Json := (ls.foldlM Reader.step .start).bind Reader.finish

/-- The value of a JSON text. -/
def read? (cs : List Char) : Option Json := (lexemes? cs).bind ofLexemes?

end Json
end Backend
