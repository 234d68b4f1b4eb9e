import Backend.Code.Listing
import Backend.Package.Builder

/-! Bringing compiled functions into a package. A batch is checked as a whole first: if one function of it
    cannot be added, none is. -/

namespace Backend

/-- The code record of a function: its local slots and its listing. -/
def Function.codeRecord (f : Function) : Except BadLocal CodeRecord :=
  f.listing.map fun ops => ⟨f.locals.items.toList, ops⟩

/-- A function to be added, with the name and the signature it gets in the package. -/
structure Routine where
  fullName : String
  signature : Signature
  function : Function

/-- Why a batch of functions is not added. -/
inductive ProjectError where
  | undeclared (e : UndeclaredLocal)
  | badLocal (e : BadLocal)
  | duplicate (e : DuplicateName)
deriving Repr, DecidableEq

def ProjectError.message : ProjectError → String
  | .undeclared e => e.message
  | .badLocal e => e.message
  | .duplicate e => e.message

namespace Builder

/-- What one function of a batch will add, given the names before it in the batch. -/
def projected (b : Builder) (names : List String) (r : Routine) : Except ProjectError (String × Signature × CodeRecord) := do
  r.function.checkLocals.mapError .undeclared
  if b.hasFunction r.fullName || names.contains r.fullName then throw (.duplicate ⟨.function, r.fullName⟩)
  let code ← r.function.codeRecord.mapError .badLocal
  return (r.fullName, r.signature, code)

/-- What a batch will add. -/
def projectedAll (b : Builder) (names : List String) :
    List Routine → Except ProjectError (List (String × Signature × CodeRecord))
  | [] => .ok []
  | r :: rest => do
    let entry ← b.projected names r
    let later ← b.projectedAll (r.fullName :: names) rest
    return entry :: later

/-- Adds functions one after the other. The first that is refused ends it, and those before it stay added. -/
def addEach (b : Builder) : List (String × Signature × CodeRecord) → Except ProjectError Unit × Builder
  | [] => (.ok (), b)
  | (name, signature, code) :: rest =>
    match b.addFunction name signature code with
    | .error e => (.error (.duplicate e), b)
    | .ok b => b.addEach rest

/-- Adds a batch of functions: how it ended, and the builder it left. -/
def projectBatch (b : Builder) (batch : List Routine) : Except ProjectError Unit × Builder :=
  match b.projectedAll [] batch with
  | .error e => (.error e, b)
  | .ok entries => b.addEach entries

/-- The builder with a batch of functions in it. -/
def project (b : Builder) (batch : List Routine) : Except ProjectError Builder :=
  match b.projectBatch batch with
  | (.error e, _) => .error e
  | (.ok (), b) => .ok b

end Builder
end Backend
