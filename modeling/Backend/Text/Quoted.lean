import Backend.Text.Extend
import Backend.Text.Unprintable

/-! Quoted text: how a string operand, a path or a logged value is shown. The quote and the backslash get a
    backslash before them, tab, line feed, carriage return and NUL have a letter of their own, and a character
    that cannot be seen on its own is written as its code point in braces. -/

namespace Backend
namespace Text

/-- The character has to be written as its code point: it has no glyph, or none of its own. -/
def isHidden (c : Char) : Bool :=
  if c.toNat < 0x7F then c.toNat < 0x20 else isUnprintable c || isExtending c

/-- One character of a quoted text. -/
def quoteChar (c : Char) : List Char :=
  if c = '"' then ['\\', '"']
  else if c = '\\' then ['\\', '\\']
  else if c = '\t' then ['\\', 't']
  else if c = '\n' then ['\\', 'n']
  else if c = '\r' then ['\\', 'r']
  else if c = '\x00' then ['\\', '0']
  else if isHidden c then ['\\', 'u', '\x7b'] ++ Nat.toDigits 16 c.toNat ++ ['\x7d']
  else [c]

/-- A text in double quotes. -/
def quoted (s : String) : String := String.ofList ('"' :: s.toList.flatMap quoteChar ++ ['"'])

end Text
end Backend
