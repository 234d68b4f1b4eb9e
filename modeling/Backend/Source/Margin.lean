import Backend.Text.Bytes
import Backend.Text.Width

/-! Which part of the lines of an excerpt is shown when they are long. The same columns are left out of all
    lines on the left: indentation first, then what is far from the span. The length of a line is taken in
    bytes, so a line of wider characters counts as long before it fills its columns. -/

namespace Backend

/-- What the choice of a margin depends on. -/
structure Extent where
  /-- The columns of white space before all code. -/
  indent : Nat
  /-- The first marked column. -/
  spanStart : Nat
  /-- The column after the last marked one. -/
  spanStop : Nat
  /-- The column after the label. -/
  labelStop : Nat
  /-- The bytes of the longest line. -/
  longest : Nat
deriving Repr

/-- The part of the lines that is shown. -/
structure Margin where
  /-- The columns for code. -/
  width : Nat
  /-- The columns left out on the left. -/
  left : Nat
  /-- Where a line that is too long ends. -/
  right : Nat
  /-- A line that goes further is marked as cut. -/
  edge : Nat
deriving Repr

namespace Margin

/-- Dots stand where something is left out. -/
def dots : List Char := ['.', '.', '.']

/-- The columns left free beside code and span for dots. -/
def room : Nat := 6

/-- Indentation of more than this is shortened, even if there is room for it. -/
def longIndent : Nat := 20

/-- What shortening leaves off. -/
def shortened (indent : Nat) : Nat := if longIndent < indent then indent - 16 else 0

/-- The columns that are left out and the end of the lines: all that is longest if it fits, else a window
    that starts after the indentation, else one around span and label, else one around the span, else the span.
    There is none for lines that are too long if the label ends inside the indentation. -/
def window? (width indent spanStart spanStop labelStop longest : Nat) : Option (Nat × Nat) :=
  let left := shortened indent
  if longest - left ≤ width then some (left, max longest left)
  else if labelStop < indent then none
  else if labelStop - indent ≤ width then some (indent, indent + width)
  else if labelStop - spanStart ≤ width then
    let left := spanStart - (width - (labelStop - spanStart)) / 2
    some (left, left + width)
  else if spanStop - spanStart ≤ width then
    let left := spanStart - (width - (spanStop - spanStart)) / 5 * 2
    some (left, left + width)
  else some (spanStart, spanStop)

/-- The margin for an extent, if there is one. -/
def fit? (width : Nat) (e : Extent) : Option Margin :=
  let spanStop := e.spanStop + room
  let labelStop := e.labelStop + room
  (window? width (e.indent - room) (e.spanStart - room) spanStop labelStop e.longest).map fun (left, right) =>
    ⟨width, left, right, if right = spanStop ∨ right = labelStop then right - room else right⟩

/-- The characters of a line that are left out on the left. -/
def skipped (m : Margin) (text : List Char) : List Char := text.take (min m.left (Text.byteLength text))

/-- The characters of a line that are shown. -/
def shown (m : Margin) (text : List Char) : List Char :=
  let size := Text.byteLength text
  let left := min m.left size
  let right := if size - m.left ≤ m.width then size else min size m.right
  Text.takeBreadth (right - left) (text.drop left)

/-- A line is marked as cut on the right. -/
def cutsRight (m : Margin) (text : List Char) : Bool :=
  m.edge < Text.byteLength text && m.left + m.width < Text.byteLength text

end Margin
end Backend
