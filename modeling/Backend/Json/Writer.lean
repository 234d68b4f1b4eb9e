import Backend.Json.Value

/-! JSON as text, on one line or laid out with two spaces for each level. -/

namespace Backend
namespace Json

/-! ### Strings -/

/-- A hexadecimal digit. -/
def hexDigit (n : Nat) : Char := Nat.digitChar (n % 16)

/-- One character of a string. -/
def escapeChar (c : Char) : List Char :=
  if c = '"' then ['\\', '"']
  else if c = '\\' then ['\\', '\\']
  else if c.toNat = 0x08 then ['\\', 'b']
  else if c.toNat = 0x0C then ['\\', 'f']
  else if c = '\n' then ['\\', 'n']
  else if c = '\r' then ['\\', 'r']
  else if c = '\t' then ['\\', 't']
  else if c.toNat < 0x20 then ['\\', 'u', '0', '0', hexDigit (c.toNat / 16), hexDigit c.toNat]
  else [c]

/-- A string in quotes. One that stands for no text is written as half of a surrogate pair. -/
def writeString : Option String → List Char
  | some s => '"' :: s.toList.flatMap escapeChar ++ ['"']
  | none => ['"', '\\', 'u', 'd', '8', '0', '0', '"']

/-! ### Values -/

/-- How a value is laid out. -/
inductive Style where
  | compact
  | pretty
deriving Repr, DecidableEq

namespace Style

/-- What separates two items at a level. -/
def gap : Style → Nat → List Char
  | .compact, _ => []
  | .pretty, level => '\n' :: List.replicate (2 * level) ' '

/-- What separates a name from its value. -/
def colon : Style → List Char
  | .compact => [':']
  | .pretty => [':', ' ']

end Style

mutual

/-- The text of a value at a level. -/
def write (style : Style) (level : Nat) : Json → List Char
  | .null => ['n', 'u', 'l', 'l']
  | .bool true => ['t', 'r', 'u', 'e']
  | .bool false => ['f', 'a', 'l', 's', 'e']
  | .number lexeme => lexeme
  | .string s => writeString s
  | .array [] => ['[', ']']
  | .array (v :: vs) =>
    '[' :: style.gap (level + 1) ++ write style (level + 1) v ++ writeItems style (level + 1) vs ++
      style.gap level ++ [']']
  | .object [] => ['\x7b', '\x7d']
  | .object ((name, v) :: ms) =>
    '\x7b' :: style.gap (level + 1) ++ writeString name ++ style.colon ++ write style (level + 1) v ++
      writeMembers style (level + 1) ms ++ style.gap level ++ ['\x7d']

/-- Further items, each after a comma. -/
def writeItems (style : Style) (level : Nat) : List Json → List Char
  | [] => []
  | v :: vs => ',' :: style.gap level ++ write style level v ++ writeItems style level vs

/-- Further members, each after a comma. -/
def writeMembers (style : Style) (level : Nat) : List (Option String × Json) → List Char
  | [] => []
  | (name, v) :: ms =>
    ',' :: style.gap level ++ writeString name ++ style.colon ++ write style level v ++
      writeMembers style level ms

end

/-- A value on one line. -/
def compact (v : Json) : List Char := write .compact 0 v

/-- A value laid out. -/
def pretty (v : Json) : List Char := write .pretty 0 v

end Json
end Backend
