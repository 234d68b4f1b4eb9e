import Backend.Source.Diagnostic
import Backend.Source.Margin
import Backend.Source.Row
import Backend.Text.Blank
import Backend.Text.Split
import Backend.Text.Width

/-! The rendering of a diagnostic: a title, the place, and the lines of the source with the span marked below
    or beside them. A row has a cell for each character. Marks are placed by the columns that the characters
    before them take on a terminal, in which a control takes none. -/

namespace Backend

/-- The terminal code of a level. -/
def Level.code : Level → String
  | .error => "\x1b[1m\x1b[91m"
  | .warning => "\x1b[1m\x1b[33m"
  | .info => "\x1b[1m\x1b[94m"
  | .note => "\x1b[1m\x1b[92m"
  | .help => "\x1b[1m\x1b[96m"

/-- The terminal code of an ink. Marks take the colour of the level. -/
def Ink.code (level : Level) : Ink → String
  | .plain => ""
  | .strong => "\x1b[1m"
  | .frame => "\x1b[1m\x1b[94m"
  | .mark => level.code

/-- A line of an excerpt. -/
structure SourceLine where
  text : List Char
  /-- The bytes of its line break: two with a carriage return, none if the line ends without one. -/
  breakSize : Nat
deriving Repr, DecidableEq

namespace SourceLine

/-- The line before a line feed. -/
def ofBroken (piece : List Char) : SourceLine :=
  if piece.getLast? = some '\r' then ⟨piece.dropLast, 2⟩ else ⟨piece, 1⟩

/-- The bytes of the text. -/
def size (l : SourceLine) : Nat := Text.byteLength l.text

/-- The characters before byte `n`. An offset past the text counts as its end. -/
def before (l : SourceLine) (n : Nat) : List Char := l.text.take (Text.column l.text n)

/-- The columns before byte `n`. -/
def markColumn (l : SourceLine) (n : Nat) : Nat := Text.breadth 0 (l.before n)

/-- Characters that turn or join the text around them are not shown. -/
def isDirecting (c : Char) : Bool :=
  c = '\u200D' || ('\u202A' ≤ c && c ≤ '\u202E') || ('\u2066' ≤ c && c ≤ '\u2069')

/-- The text as it is shown: a tab as four blanks. -/
def shownText (l : SourceLine) : List Char :=
  l.text.flatMap fun c => if c = '\t' then List.replicate 4 ' ' else if isDirecting c then [] else [c]

/-- The white space before the code, with a tab as four columns; `none` if there is no code. -/
def indent? (l : SourceLine) : Option Nat :=
  if l.text.all Text.isBlank then none
  else some ((l.text.takeWhile Text.isBlank).foldl (fun n c => n + if c = '\t' then 4 else 1) 0)

end SourceLine

/-- The part of a file that a rendering shows: all of the lines that a span touches. -/
structure Excerpt where
  /-- The number of the first line. -/
  firstNumber : Nat
  lines : List SourceLine
  /-- Where the span starts, in bytes from the start of the first line. -/
  start : Nat
  /-- Where the span ends, in bytes from the start of the first line. -/
  stop : Nat
deriving Repr

namespace Excerpt

/-- The lines of a window. A line feed at its very end starts no further line. -/
def windowLines (window : List Char) : List SourceLine :=
  let pieces := Text.splitLines window
  pieces.dropLast.map .ofBroken ++ match pieces.getLast? with
    | none | some [] => []
    | some piece => [⟨piece, 0⟩]

/-- The excerpt of a span; `none` if an end of the span is no place to cut the contents at. -/
def ofSpan? (contents : List Char) (span : Span) : Option Excerpt := do
  let (before, rest) ← Text.cut contents span.start
  let (marked, after) ← Text.cut rest (span.stop - span.start)
  let lead := (before.reverse.takeWhile (· ≠ '\n')).reverse
  return {
    firstNumber := before.count '\n' + 1
    lines := windowLines (lead ++ marked ++ after.takeWhile (· ≠ '\n'))
    start := Text.byteLength lead
    stop := Text.byteLength (lead ++ marked) }

/-! ### Where a span starts and ends -/

/-- The line in which the span starts. -/
def firstLine (e : Excerpt) : SourceLine := e.lines.head?.getD ⟨[], 0⟩

/-- The column of the first mark. -/
def firstMark (e : Excerpt) : Nat := e.firstLine.markColumn e.start

/-- The line below which the span ends, counted from the first, and where the span ends in bytes of that
    line. A span ends in a line if it goes at most over its line break. -/
def lastLine : List SourceLine → Nat → Nat × Nat
  | [], stop => (0, stop)
  | l :: ls, stop =>
    if stop ≤ l.size + max l.breakSize 1 ∨ ls = [] then (0, stop)
    else
      let (k, rest) := lastLine ls (stop - (l.size + l.breakSize))
      (k + 1, rest)

/-- The last line shown, counted from the first. -/
def lastIndex (e : Excerpt) : Nat := (lastLine e.lines e.stop).1

/-- The column of the last mark. A span within one line has one mark at least, and a longer span that goes
    over a line break is marked there. -/
def lastMark (e : Excerpt) : Nat :=
  let (k, stop) := lastLine e.lines e.stop
  let line := e.lines[k]?.getD ⟨[], 0⟩
  if k = 0 then max (line.markColumn stop) (e.firstMark + 1) - 1
  else (line.markColumn stop - 1) + if line.size < stop then 1 else 0

/-! ### The margin -/

/-- The columns of a rendering. -/
def totalWidth : Nat := 140

/-- White space without any code after it is as wide as can be. -/
def unbounded : Nat := 0xFFFFFFFFFFFFFFFF

/-- The columns that the lines and the marks take. -/
def extent (e : Excerpt) : Extent :=
  let spanStop := max e.firstMark e.lastMark + 1
  { indent := (e.lines.filterMap (·.indent?)).min?.getD unbounded
    spanStart := min e.firstMark e.lastMark
    spanStop := spanStop
    labelStop := spanStop + 5
    longest := (e.lines.map (·.size)).max?.getD 0 }

/-- The margin of all lines: they have the columns that the frame leaves, which has room for the number after
    the last one. -/
def margin? (e : Excerpt) : Option Margin :=
  Margin.fit? (totalWidth - (3 + (Nat.toDigits 10 (e.firstNumber + e.lines.length)).length)) e.extent

/-! ### Rows -/

def markOf (level : Level) : Char := if level = .error then '^' else '-'

def labelOf (level : Level) : List Char :=
  match level with
  | .error | .warning => "here".toList
  | _ => level.word.toList ++ ": here".toList

/-- A frame row without a number. -/
def bar (width : Nat) : Row := Row.put [] (width + 1) .frame ['|']

/-- A frame row with the number of a line, right-aligned. -/
def gutter (width number : Nat) : Row :=
  Row.inked .frame ((Nat.toDigits 10 number).leftpad width ' ' ++ [' ', '|'])

/-- Writes a line of the source at a column, with dots where something is left out. -/
def putCode (row : Row) (column : Nat) (m : Margin) (line : SourceLine) : Row :=
  let shown := m.shown line.shownText
  let row := row.put column .plain shown
  let row := if m.left = 0 then row else row.put column .frame Margin.dots
  if m.cutsRight line.shownText then row.put (column + Text.breadth 1 shown - 3) .frame Margin.dots else row

/-- The columns of a line that are left out on the left. -/
def skipped (m : Margin) (line : SourceLine) : Nat := Text.breadth 1 (m.skipped line.shownText)

/-- Writes marks below the columns from `start` up to `stop` of a line. Marks left of the margin gather at
    the start of the row. -/
def putMarks (row : Row) (column skipped start stop : Nat) (mark : Char) : Row :=
  (List.range' start (stop - start)).foldl (fun row c => row.put (column + c - skipped) .mark [mark]) row

/-- A span within one line is marked below it. -/
def oneLine (e : Excerpt) (m : Margin) (level : Level) (width : Nat) : List Row :=
  let column := width + 3
  let skipped := skipped m e.firstLine
  let labelled := (bar width).put (column + (e.lastMark + 2 - skipped)) .mark (labelOf level)
  [putCode (gutter width e.firstNumber) column m e.firstLine,
   putMarks labelled column skipped e.firstMark (e.lastMark + 1) (markOf level)]

/-- The column of the stroke beside the lines of a longer span. -/
def strokeColumn (width : Nat) : Nat := width + 3

/-- The column of the text of these lines. -/
def insetColumn (width : Nat) : Nat := width + 5

/-- A stroke from the side up to a column of a line. -/
def putStroke (row : Row) (width skipped stop : Nat) : Row :=
  row.put (strokeColumn width + 1) .mark
    (List.replicate (insetColumn width + stop - skipped - (strokeColumn width + 1)) '_')

/-- The line in which a longer span starts: a corner before it if only white space comes first, else a mark
    below it. -/
def openingRows (e : Excerpt) (m : Margin) (level : Level) (width : Nat) : List Row :=
  let code := putCode (gutter width e.firstNumber) (insetColumn width) m e.firstLine
  if (e.firstLine.shownText.take e.firstMark).all Text.isBlank then [code.put (strokeColumn width) .mark ['/']]
  else
    let skipped := skipped m e.firstLine
    [code, putMarks (putStroke (bar width) width skipped e.firstMark) (insetColumn width) skipped
      e.firstMark (e.firstMark + 1) (markOf level)]

/-- A line beside which a span goes on. -/
def besideRow (m : Margin) (width number : Nat) (line : SourceLine) : Row :=
  putCode ((gutter width number).put (strokeColumn width) .mark ['|']) (insetColumn width) m line

/-- The lines inside a longer span; of more than three only the first and the last. -/
def innerRows (width : Nat) (rows : List Row) : List Row :=
  if rows.length ≤ 3 then rows
  else
    rows.take 1 ++ [(Row.inked .frame Margin.dots).put (strokeColumn width) .mark ['|']] ++
      rows.drop (rows.length - 1)

/-- The line in which a longer span ends, and the mark below it. -/
def closingRows (e : Excerpt) (m : Margin) (level : Level) (width number : Nat) (line : SourceLine) : List Row :=
  let skipped := skipped m line
  let stroke := (putStroke (bar width) width skipped e.lastMark).put (strokeColumn width) .mark ['|']
  let labelled := stroke.put (insetColumn width + (e.lastMark + 2 - skipped)) .mark (labelOf level)
  [besideRow m width number line,
   putMarks labelled (insetColumn width) skipped e.lastMark (e.lastMark + 1) (markOf level)]

/-- The rows between the two bars. -/
def body (e : Excerpt) (m : Margin) (level : Level) (width : Nat) : List Row :=
  if e.lines.isEmpty then []
  else if e.lastIndex = 0 then e.oneLine m level width
  else
    let numbered := e.lines.zipIdx e.firstNumber
    let inner := ((numbered.take e.lastIndex).drop 1).map fun (line, number) => besideRow m width number line
    let closing := match numbered[e.lastIndex]? with
      | some (line, number) => e.closingRows m level width number line
      | none => []
    e.openingRows m level width ++ innerRows width inner ++ closing

/-- The width of the largest line number shown. -/
def numberWidth (e : Excerpt) : Nat :=
  if e.lines.isEmpty then 0 else (Nat.toDigits 10 (e.firstNumber + e.lastIndex)).length

/-- The row that names file, line and column. The column counts characters. -/
def placeRow (e : Excerpt) (path : String) : Row :=
  let place := if e.lines.isEmpty then ":1:1"
    else ":" ++ e.firstNumber.repr ++ ":" ++ ((e.firstLine.before e.start).length + 1).repr
  let arrow := Row.put [] e.numberWidth .frame "-->".toList
  arrow.put (e.numberWidth + 4) .plain path.toList ++ Row.inked .plain place.toList

/-- Everything below the title; `none` if the lines have no margin. -/
def rendered? (e : Excerpt) (level : Level) (path : String) : Option (List Row) :=
  let width := e.numberWidth
  e.margin?.map fun m => [e.placeRow path, bar width] ++ e.body m level width ++ [bar width]

end Excerpt

namespace Diagnostic

/-- The row of level and message. -/
def titleRow (d : Diagnostic) : Row :=
  Row.inked .mark d.level.word.toList ++
    if d.message.isEmpty then [] else Row.inked .plain [':', ' '] ++ Row.inked .strong d.message.toList

/-- The rows of a rendering; `none` if the location is no piece of its file, or its lines have no margin. -/
def renderedRows? (d : Diagnostic) : Option (List Row) :=
  match d.location with
  | none => some [d.titleRow]
  | some l => do
    let e ← Excerpt.ofSpan? l.file.contents.toList l.span
    return d.titleRow :: (← e.rendered? d.level l.file.path)

/-- The rendering as one text, with colours if asked for. -/
def render? (d : Diagnostic) (colour : Bool) : Option String :=
  d.renderedRows?.map fun rows =>
    "\n".intercalate (rows.map fun row =>
      String.ofList (if colour then row.coloured (Ink.code d.level) else row.text))

end Diagnostic
end Backend
