import Backend.Json.Reader
import Backend.Json.Scaling
import Backend.Package.Basic

/-! Packages from JSON. A record is an object with the record's fields, or an array of them in order. An object
    may have other members, but each field only once; an array may end before the last fields if those can be
    left out. -/

namespace Backend
namespace Json

/-! ### Parts of records -/

/-- The text of a string. -/
def text? : Json → Option String
  | .string s => s
  | _ => none

/-- The items of an array, each decoded. -/
def list? {α : Type} (decode : Json → Option α) : Json → Option (List α)
  | .array items => items.mapM decode
  | _ => none

/-- A member of an object, decoded. Its name has to be a text. -/
def named? {α : Type} (decode : Json → Option α) (member : Option String × Json) : Option (String × α) := do
  return (← member.1, ← decode member.2)

/-- The members of an object, each decoded; the last one of a name counts. -/
def catalog? {α : Type} (decode : Json → Option α) : Json → Option (Catalog α)
  | .object members => (members.mapM (named? decode)).map Catalog.ofEntries
  | _ => none

/-- A word of 32 bits: a plain integer in range. -/
def uint32? : Json → Option UInt32
  | .number lexeme =>
    match numeral? lexeme with
    | some ⟨false, whole, none, none⟩ =>
      let n := Nat.ofDigitChars 10 whole 0
      if n < 0x100000000 then some (UInt32.ofNat n) else none
    | _ => none
  | _ => none

/-- A finite binary number. -/
def binary64? : Json → Option Binary64
  | .number lexeme => (numeral? lexeme).bind Numeral.toBinary64?
  | _ => none

/-- An exact number, written as a string. -/
def decimal? (v : Json) : Option Decimal := do
  match Decimal.parse (← text? v) with
  | .ok d => some d
  | .error _ => none

/-! ### Records -/

/-- The value of the one member of a name, if there is one; `none` if there are more. -/
def member? (members : List (String × Json)) (name : String) : Option (Option Json) :=
  match members.filter (·.1 = name) with
  | [] => some none
  | [(_, v)] => some (some v)
  | _ => none

/-- The fields of a record in the order of their names, as far as they are given. -/
def record? (names : List String) : Json → Option (List (Option Json))
  | .array items =>
    if items.length ≤ names.length then
      some (items.map some ++ List.replicate (names.length - items.length) none)
    else none
  | .object members => do
    let entries ← members.mapM (named? some)
    names.mapM (member? entries)
  | _ => none

/-- A list that is empty if it is left out. -/
def listOrEmpty? {α : Type} (decode : Json → Option α) : Option Json → Option (List α)
  | none => some []
  | some v => list? decode v

/-- A collection that may be left out or null. -/
def optional? {α : Type} (decode : Json → Option α) : Option Json → Option (Option α)
  | none => some none
  | some .null => some none
  | some v => (decode v).map some

/-- A record of two texts. -/
def textPair? (first second : String) (v : Json) : Option (String × String) := do
  match ← record? [first, second] v with
  | [some a, some b] => return (← text? a, ← text? b)
  | _ => none

end Json

open Json

def Constant.ofJson? (v : Json) : Option Constant := do
  match ← record? ["Name", "TypeName", "Value", "ValueFloat"] v with
  | [some name, some typeName, some value, some float] =>
    return ⟨← text? name, ← text? typeName, ← decimal? value, ← binary64? float⟩
  | _ => none

def TypeField.ofJson? (v : Json) : Option TypeField := (textPair? "Name" "TypeName" v).map fun (n, t) => ⟨n, t⟩

def LocalSlot.ofJson? (v : Json) : Option LocalSlot := (textPair? "Name" "TypeName" v).map fun (n, t) => ⟨n, t⟩

def Signature.ofJson? (v : Json) : Option Signature := do
  match ← record? ["Name", "TypeArgs", "Params", "Returns"] v with
  | [some name, typeArgs, params, returns] =>
    return ⟨← text? name, ← listOrEmpty? text? typeArgs, ← listOrEmpty? text? params, ← listOrEmpty? text? returns⟩
  | _ => none

def TypeRecord.ofJson? (v : Json) : Option TypeRecord := do
  match ← record? ["Name", "Alignment", "Size", "TypeArgs", "Fields", "StaticFields", "ConstFields", "Methods"] v with
  | [some name, some alignment, some size, typeArgs, fields, staticFields, constFields, methods] =>
    return ⟨← text? name, ← uint32? alignment, ← uint32? size, ← listOrEmpty? text? typeArgs,
      ← listOrEmpty? TypeField.ofJson? fields, ← listOrEmpty? TypeField.ofJson? staticFields,
      ← listOrEmpty? Constant.ofJson? constFields, ← listOrEmpty? Signature.ofJson? methods⟩
  | _ => none

def CodeRecord.ofJson? (v : Json) : Option CodeRecord := do
  match ← record? ["Locals", "Ops"] v with
  | [some locals, some ops] => return ⟨← list? LocalSlot.ofJson? locals, ← list? text? ops⟩
  | _ => none

def Translatable.ofJson? (v : Json) : Option Translatable := (textPair? "Context" "Text" v).map fun (c, t) => ⟨c, t⟩

/-- The text is no package. -/
structure DecodeError where
deriving Repr, DecidableEq

def DecodeError.message (_ : DecodeError) : String := "decoding package"

namespace Package

def ofJson? (v : Json) : Option Package := do
  match ← record? ["Constants", "Types", "Funcs", "Strings", "TrStrings", "Code"] v with
  | [constants, types, functions, strings, trStrings, code] =>
    return ⟨← optional? (catalog? Constant.ofJson?) constants, ← optional? (catalog? TypeRecord.ofJson?) types,
      ← optional? (catalog? Signature.ofJson?) functions, ← optional? (list? text?) strings,
      ← optional? (list? Translatable.ofJson?) trStrings, ← optional? (catalog? CodeRecord.ofJson?) code⟩
  | _ => none

/-- The package of a text. -/
def decode (text : String) : Except DecodeError Package :=
  match (Json.read? text.toList).bind ofJson? with
  | some p => .ok p
  | none => .error ⟨⟩

end Package
end Backend
