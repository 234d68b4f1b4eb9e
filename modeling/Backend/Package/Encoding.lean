import Backend.Json.Writer
import Backend.Number.Layout
import Backend.Package.Basic

/-! Packages as JSON. Absent collections and most empty lists are left out. -/

namespace Backend

/-- Numbers in JSON are positional from `0.00001` up to `1e16`, their exponents have a sign, and a tie between
    two digits goes to the even one. -/
def jsonLayout : Layout := ⟨-5, 15, true, .toEven⟩

namespace Json

/-- A binary number. One that is not finite has no JSON form. -/
def ofBinary64 (x : Binary64) : Json := if x.isFinite then .number (jsonLayout.write x) else .null

def ofTexts (l : List String) : Json := .array (l.map ofText)

/-- Records under names. -/
def ofCatalog {α : Type} (encode : α → Json) (c : Catalog α) : Json :=
  ofFields (c.entries.map fun (name, value) => (name, encode value))

/-- A member that is left out if it is an empty list. -/
def unlessEmpty {α : Type} (name : String) (encode : α → Json) (l : List α) : List (String × Json) :=
  if l.isEmpty then [] else [(name, .array (l.map encode))]

/-- A member that is left out if it is absent. -/
def ifPresent {α : Type} (name : String) (encode : α → Json) (a : Option α) : List (String × Json) :=
  (a.map fun a => (name, encode a)).toList

end Json

open Json

def Constant.toJson (c : Constant) : Json :=
  ofFields [("Name", ofText c.name), ("TypeName", ofText c.typeName), ("Value", ofText c.value.text),
    ("ValueFloat", ofBinary64 c.float)]

def TypeField.toJson (f : TypeField) : Json := ofFields [("Name", ofText f.name), ("TypeName", ofText f.typeName)]

def LocalSlot.toJson (s : LocalSlot) : Json := ofFields [("Name", ofText s.name), ("TypeName", ofText s.typeName)]

def Signature.toJson (s : Signature) : Json :=
  ofFields ([("Name", ofText s.name)] ++ unlessEmpty "TypeArgs" ofText s.typeArgs ++
    [("Params", ofTexts s.params), ("Returns", ofTexts s.returns)])

def TypeRecord.toJson (r : TypeRecord) : Json :=
  ofFields ([("Name", ofText r.name), ("Alignment", ofNat r.alignment.toNat), ("Size", ofNat r.size.toNat)] ++
    unlessEmpty "TypeArgs" ofText r.typeArgs ++ unlessEmpty "Fields" TypeField.toJson r.fields ++
    unlessEmpty "StaticFields" TypeField.toJson r.staticFields ++
    unlessEmpty "ConstFields" Constant.toJson r.constFields ++
    unlessEmpty "Methods" Signature.toJson r.methods)

def CodeRecord.toJson (c : CodeRecord) : Json :=
  ofFields [("Locals", .array (c.locals.map LocalSlot.toJson)), ("Ops", ofTexts c.ops)]

def Translatable.toJson (t : Translatable) : Json :=
  ofFields [("Context", ofText t.context), ("Text", ofText t.text)]

namespace Package

def toJson (p : Package) : Json :=
  ofFields (ifPresent "Constants" (ofCatalog Constant.toJson) p.constants ++
    ifPresent "Types" (ofCatalog TypeRecord.toJson) p.types ++
    ifPresent "Funcs" (ofCatalog Signature.toJson) p.functions ++
    ifPresent "Strings" ofTexts p.strings ++
    ifPresent "TrStrings" (fun l => .array (l.map Translatable.toJson)) p.trStrings ++
    ifPresent "Code" (ofCatalog CodeRecord.toJson) p.code)

/-- The text of a package, laid out. -/
def encode (p : Package) : String := String.ofList p.toJson.pretty

end Package
end Backend
