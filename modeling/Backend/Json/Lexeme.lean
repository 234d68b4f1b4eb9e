import Backend.Json.Value

/-! The lexemes of a JSON text. They are found in one pass over the characters: a scan is what has been found
    so far and the lexeme that is being read. -/

namespace Backend
namespace Json

/-- A lexeme. -/
inductive Lexeme where
  | openArray
  | closeArray
  | openObject
  | closeObject
  | comma
  | colon
  | null
  | bool (b : Bool)
  | number (lexeme : List Char)
  | string (text : Option String)
deriving Repr, DecidableEq

/-! ### Strings -/

/-- A string up to some character: its text so far, last character first, whether it can still be a text, and
    the first half of a surrogate pair if that was the last thing read. -/
structure PartialString where
  chars : List Char
  whole : Bool
  half : Option Nat
deriving Repr, DecidableEq

namespace PartialString

def empty : PartialString := ⟨[], true, none⟩

/-- Goes on with a character. A half that was waiting is left alone by it. -/
def push (p : PartialString) (c : Char) : PartialString := ⟨c :: p.chars, p.whole && p.half.isNone, none⟩

def isFirstHalf (n : Nat) : Bool := 0xD800 ≤ n && n < 0xDC00

def isSecondHalf (n : Nat) : Bool := 0xDC00 ≤ n && n < 0xE000

/-- Goes on with an escaped unit of 16 bits: a character, or half of a pair. -/
def pushUnit (p : PartialString) (n : Nat) : PartialString :=
  if isFirstHalf n then ⟨p.chars, p.whole && p.half.isNone, some n⟩
  else if isSecondHalf n then
    match p.half with
    | some first => ⟨Char.ofNat (0x10000 + (first - 0xD800) * 0x400 + (n - 0xDC00)) :: p.chars, p.whole, none⟩
    | none => ⟨p.chars, false, none⟩
  else p.push (Char.ofNat n)

/-- The string that ends here. -/
def text? (p : PartialString) : Option String :=
  if p.whole && p.half.isNone then some (String.ofList p.chars.reverse) else none

end PartialString

/-- The character that a letter after a backslash stands for. -/
def escaped? : Char → Option Char
  | '"' => some '"'
  | '\\' => some '\\'
  | '/' => some '/'
  | 'b' => some '\x08'
  | 'f' => some '\x0c'
  | 'n' => some '\n'
  | 'r' => some '\r'
  | 't' => some '\t'
  | _ => none

/-- The value of a hexadecimal digit of either case. -/
def hexValue? (c : Char) : Option Nat :=
  if c.isDigit then some (c.toNat - '0'.toNat)
  else if 'a'.toNat ≤ c.toNat ∧ c.toNat ≤ 'f'.toNat then some (c.toNat - 'a'.toNat + 10)
  else if 'A'.toNat ≤ c.toNat ∧ c.toNat ≤ 'F'.toNat then some (c.toNat - 'A'.toNat + 10)
  else none

/-! ### Scanning -/

/-- The lexeme that is being read. Characters of words and numbers are kept last first. -/
inductive Reading where
  | nothing
  | word (chars : List Char)
  | number (chars : List Char)
  | string (p : PartialString)
  | escape (p : PartialString)
  | unit (p : PartialString) (count value : Nat)
deriving Repr, DecidableEq

/-- The lexemes found so far, last first, and the one being read. -/
structure Scan where
  found : List Lexeme
  reading : Reading
deriving Repr, DecidableEq

def isSpace (c : Char) : Bool := c = ' ' || c = '\t' || c = '\n' || c = '\r'

/-- A character that can stand in a number. -/
def isNumeric (c : Char) : Bool := c.isDigit || c = '-' || c = '+' || c = '.' || c = 'e' || c = 'E'

/-- The lexeme of a bare word. -/
def word? (chars : List Char) : Option Lexeme :=
  if chars = ['n', 'u', 'l', 'l'] then some .null
  else if chars = ['t', 'r', 'u', 'e'] then some (.bool true)
  else if chars = ['f', 'a', 'l', 's', 'e'] then some (.bool false)
  else none

/-- The lexeme of the text of a number. -/
def number? (chars : List Char) : Option Lexeme := (numeral? chars).map fun _ => .number chars

/-- The lexeme of a character that stands for itself. -/
def punctuation? : Char → Option Lexeme
  | '[' => some .openArray
  | ']' => some .closeArray
  | '\x7b' => some .openObject
  | '\x7d' => some .closeObject
  | ',' => some .comma
  | ':' => some .colon
  | _ => none

namespace Scan

def start : Scan := ⟨[], .nothing⟩

/-- A character with which a lexeme may start. -/
def begin (found : List Lexeme) (c : Char) : Option Scan :=
  if isSpace c then some ⟨found, .nothing⟩
  else if c = '"' then some ⟨found, .string .empty⟩
  else if c.isDigit || c = '-' then some ⟨found, .number [c]⟩
  else if c.isLower then some ⟨found, .word [c]⟩
  else (punctuation? c).map fun l => ⟨l :: found, .nothing⟩

/-- One character further. -/
def step (s : Scan) (c : Char) : Option Scan :=
  match s.reading with
  | .nothing => begin s.found c
  | .word chars =>
    if c.isLower then some ⟨s.found, .word (c :: chars)⟩
    else (word? chars.reverse).bind fun l => begin (l :: s.found) c
  | .number chars =>
    if isNumeric c then some ⟨s.found, .number (c :: chars)⟩
    else (number? chars.reverse).bind fun l => begin (l :: s.found) c
  | .string p =>
    if c = '"' then some ⟨.string p.text? :: s.found, .nothing⟩
    else if c = '\\' then some ⟨s.found, .escape p⟩
    else if c.toNat < 0x20 then none
    else some ⟨s.found, .string (p.push c)⟩
  | .escape p =>
    if c = 'u' then some ⟨s.found, .unit p 0 0⟩
    else (escaped? c).map fun e => ⟨s.found, .string (p.push e)⟩
  | .unit p count value =>
    (hexValue? c).map fun d =>
      if count = 3 then ⟨s.found, .string (p.pushUnit (value * 16 + d))⟩
      else ⟨s.found, .unit p (count + 1) (value * 16 + d)⟩

/-- The lexemes of a text that ends here. -/
def finish (s : Scan) : Option (List Lexeme) :=
  match s.reading with
  | .nothing => some s.found.reverse
  | .word chars => (word? chars.reverse).map fun l => (l :: s.found).reverse
  | .number chars => (number? chars.reverse).map fun l => (l :: s.found).reverse
  | _ => none

end Scan

/-- The lexemes of a text; `none` if it has a part that is none. -/
def lexemes? (cs : List Char) : Option (List Lexeme) := (cs.foldlM Scan.step .start).bind Scan.finish

end Json
end Backend
