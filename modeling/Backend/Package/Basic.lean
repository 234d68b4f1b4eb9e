import Backend.Catalog
import Backend.Package.Record

/-! Packages: what one compilation leaves for others. A header says what there is, an object also how it is
    done. -/

namespace Backend

/-- The two views of a package. -/
inductive PackageKind where
  | header
  | object
deriving Repr, DecidableEq

/-- A package. A collection may be absent, which is not the same as empty. -/
structure Package where
  constants : Option (Catalog Constant)
  types : Option (Catalog TypeRecord)
  functions : Option (Catalog Signature)
  strings : Option (List String)
  trStrings : Option (List Translatable)
  code : Option (Catalog CodeRecord)
deriving BEq

/-- Why a package is not of a kind. -/
inductive CheckError where
  | notHeader
  | noCode (function : String)
deriving Repr, DecidableEq

def CheckError.message : CheckError → String
  | .notHeader => "header package contains code or string pools"
  | .noCode name => s!"function `{name}` has no code in the object package"

namespace Package

/-- The package that holds nothing. -/
def empty : Package := ⟨none, none, none, none, none, none⟩

/-- The package says nothing about how things are done. -/
def isHeader (p : Package) : Bool :=
  p.code.all (·.isEmpty) && p.strings.all (·.isEmpty) && p.trStrings.all (·.isEmpty)

/-- The function has code in the package. -/
def hasCode (p : Package) (name : String) : Bool := p.code.any (·.contains name)

/-- The names of all functions, in order. -/
def functionNames (p : Package) : List String := (p.functions.map (·.keys)).getD []

/-- Checks that a package is of a kind. -/
def check (p : Package) : PackageKind → Except CheckError Unit
  | .header => if p.isHeader then .ok () else .error .notHeader
  | .object =>
    match p.functionNames.find? (!p.hasCode ·) with
    | some name => .error (.noCode name)
    | none => .ok ()

end Package
end Backend
