import Backend.Source.File

/-! Messages about a place in the source. -/

namespace Backend

/-- How grave a message is, the least grave first. -/
inductive Level where
  | note
  | help
  | info
  | warning
  | error
deriving Repr, DecidableEq, Ord

namespace Level

def all : List Level := [.note, .help, .info, .warning, .error]

/-- The level as it stands before a message in a rendering. -/
def word : Level → String
  | .note => "note"
  | .help => "help"
  | .info => "info"
  | .warning => "warning"
  | .error => "error"

/-- The level as a title. -/
def title : Level → String
  | .note => "Note"
  | .help => "Help"
  | .info => "Info"
  | .warning => "Warning"
  | .error => "Error"

def ofTitle? (s : String) : Option Level := all.find? (·.title = s)

end Level

/-- A message, at a place in the source if it is about one. -/
structure Diagnostic where
  level : Level
  location : Option Location
  message : String
deriving Repr, BEq

/-- The diagnostic in one line. -/
def Diagnostic.summary (d : Diagnostic) : String :=
  let place := match d.location with
    | some l => l.file.path ++ ":" ++ l.span.start.repr ++ ": "
    | none => ""
  place ++ d.level.title ++ ": " ++ d.message

end Backend
