import Backend.Json.Writer
import Backend.Text.Split
import Backend.Text.Shown

/-! The debug journal: what the tools write down while they work, if they are asked to. A heading is followed
    by all that is noted until it is left, one step deeper. The journal is opened by the first thing to be
    written, and its file and form are chosen by a setting. In the form for people depth is shown by padding, so there
    is a depth at which nothing can be written. -/

namespace Backend
namespace Journal

/-! ### Entries -/

/-- A value that is noted down. -/
inductive Shown where
  | text (s : String)
  | texts (l : List String)
  | truth (b : Bool)
  | integer (n : Int)
  | number (x : Binary64)
  | nothing

def Shown.render : Shown → String
  | .text s => Text.quoted s
  | .texts l => Text.bracketed (l.map Text.quoted)
  | .truth b => if b then "true" else "false"
  | .integer n => n.repr
  | .number x => x.shown
  | .nothing => "None"

/-- A message with labelled values. -/
structure Note where
  message : String
  fields : List (String × Shown)

/-- What is written: a note, a heading with which a section starts, or the end of a section. -/
inductive Entry where
  | note (n : Note)
  | enter (heading : Note)
  | leave

namespace Entry

def marker : Entry → String
  | .note _ => "-"
  | .enter _ => ">"
  | .leave => "<"

def nesting : Entry → String
  | .note _ => "flat"
  | .enter _ => "open"
  | .leave => "close"

/-- The note of an entry; the end of a section has an empty one. -/
def content : Entry → Note
  | .note n => n
  | .enter n => n
  | .leave => ⟨"", []⟩

end Entry

/-- The depth at which an entry is written, in a journal at depth `depth`. -/
def Entry.depthAt (depth : Nat) : Entry → Nat
  | .leave => depth - 1
  | _ => depth

/-- The depth after an entry. -/
def Entry.depthAfter (depth : Nat) : Entry → Nat
  | .note _ => depth
  | .enter _ => depth + 1
  | .leave => depth - 1

/-! ### Forms -/

/-- How entries are written. -/
inductive Form where
  | human
  | json
deriving Repr, DecidableEq

namespace Form

def fileName : Form → String
  | .human => "sil_debug.txt"
  | .json => "sil_debug.json"

/-- The name of the thread that writes. There is one. -/
def thread : String := "ThreadId(1)"

/-- The line of an entry written at a depth, if it can be padded that far. -/
def line? (form : Form) (depth : Nat) (e : Entry) : Option String :=
  let fields := e.content.fields.map fun (label, value) => (label, value.render)
  match form with
  | .human => (Text.padding? (2 * depth)).map fun spaces =>
    spaces ++ thread ++ " " ++ e.marker ++ " " ++ e.content.message ++
      String.join (fields.map fun (label, value) => " " ++ label ++ "=" ++ value) ++ "\n"
  | .json => some <|
    String.ofList (Json.compact (.ofFields
      [("message", .ofText e.content.message),
       ("nesting", .ofText e.nesting),
       ("thread", .ofText thread),
       ("fields", .array (fields.map fun (label, value) => .array [.ofText label, .ofText value]))])) ++ "\n"

end Form

/-! ### Writing -/

/-- An open journal. -/
structure Page where
  form : Form
  depth : Nat
  text : String

namespace Page

def write? (p : Page) (e : Entry) : Option Page :=
  (p.form.line? (e.depthAt p.depth) e).map fun line =>
    { p with depth := e.depthAfter p.depth, text := p.text ++ line }

end Page

/-- The state of a journal: not needed yet, given up with a complaint, or open. -/
inductive State where
  | untouched
  | off (complaint : String)
  | on (page : Page)

/-- The form that a setting asks for, or a complaint about it. No setting asks for nothing. -/
def formOf : Option String → Except String Form
  | none => .error ""
  | some "json" => .ok .json
  | some "human" => .ok .human
  | some "1" => .ok .human
  | some other => .error s!"SIL_DEBUG must be `json`, `human` or `1`, not `{other}`; logging disabled\n"

end Journal

/-- A journal: its setting, which files cannot be made and why, and what has come of it. -/
structure Journal where
  setting : Option String
  refusal : String → Option String
  state : Journal.State

namespace Journal

/-- A journal to which nothing has been written. -/
def new (setting : Option String) (refusal : String → Option String) : Journal := ⟨setting, refusal, .untouched⟩

/-- The journal that is never written. -/
def silent : Journal := new none fun _ => none

/-- What the journal becomes when it is first needed. -/
def opened (j : Journal) : State :=
  match formOf j.setting with
  | .error complaint => .off complaint
  | .ok form => match j.refusal form.fileName with
    | some reason => .off ("SIL_DEBUG: cannot create `" ++ form.fileName ++ "`: " ++ reason ++ "\n")
    | none => .on ⟨form, 0, ""⟩

/-- Writes an entry, opening the journal if it is the first. It fails if the entry has no line. -/
def write? (j : Journal) (e : Entry) : Option Journal :=
  let state := match j.state with
    | .untouched => j.opened
    | state => state
  match state with
  | .on page => (page.write? e).map fun page => { j with state := .on page }
  | state => some { j with state := state }

/-- The journal after an entry was to be written. If that fails, nothing has changed. -/
def attempt (j : Journal) (e : Entry) : Journal := (j.write? e).getD j

def attemptAll (j : Journal) (entries : List Entry) : Journal := entries.foldl attempt j

/-- The file of the journal with its contents, if there is one. -/
def file? (j : Journal) : Option (String × String) :=
  match j.state with
  | .on page => some (page.form.fileName, page.text)
  | _ => none

/-- What the journal had to complain about. -/
def complaint (j : Journal) : String :=
  match j.state with
  | .off complaint => complaint
  | _ => ""

end Journal
end Backend
