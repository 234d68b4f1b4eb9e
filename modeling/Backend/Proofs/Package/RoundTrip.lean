import Backend.Proofs.Json.Reading
import Backend.Proofs.Number.Layout
import Backend.Proofs.Package.Record

/-! Packages as text and back. The text of any package is JSON and is read as the package's JSON value. So a package
    is decoded to itself, up to what reading makes of its binary numbers. -/

namespace Backend
namespace Json

/-! ### What is written is JSON -/

theorem sound_ofFields {fields : List (String × Json)} (h : ∀ f ∈ fields, f.2.Sound) : (ofFields fields).Sound := by
  refine .object fun m hm => ?_
  obtain ⟨f, hf, rfl⟩ := List.mem_map.mp hm
  exact h f hf

theorem sound_array {α : Type} {encode : α → Json} (h : ∀ a, (encode a).Sound) (l : List α) :
    (Json.array (l.map encode)).Sound := by
  refine .array fun v hv => ?_
  obtain ⟨a, -, rfl⟩ := List.mem_map.mp hv
  exact h a

theorem sound_ofText (s : String) : (ofText s).Sound := .string _

theorem sound_ofTexts (l : List String) : (ofTexts l).Sound := sound_array sound_ofText l

theorem sound_ofNat (n : Nat) : (ofNat n).Sound := .number (by rw [numeral?_toDigits]; rfl)

theorem sound_ofBinary64 (x : Binary64) : (ofBinary64 x).Sound := by
  unfold ofBinary64
  split
  · exact .number (jsonLayout.numeral?_write x)
  · exact .null

theorem sound_ofCatalog {α : Type} {encode : α → Json} (h : ∀ a, (encode a).Sound) (c : Catalog α) :
    (ofCatalog encode c).Sound := by
  refine sound_ofFields fun f hf => ?_
  obtain ⟨e, -, rfl⟩ := List.mem_map.mp hf
  exact h e.2

theorem sound_unlessEmpty {α : Type} {encode : α → Json} (h : ∀ a, (encode a).Sound) (name : String) (l : List α) :
    ∀ f ∈ unlessEmpty name encode l, f.2.Sound := by
  unfold unlessEmpty
  split
  · exact nofun
  · exact List.forall_mem_singleton.mpr (sound_array h l)

theorem sound_ifPresent {α : Type} {encode : α → Json} (h : ∀ a, (encode a).Sound) (name : String) (o : Option α) :
    ∀ f ∈ ifPresent name encode o, f.2.Sound := by
  cases o with
  | none => exact nofun
  | some a => exact List.forall_mem_singleton.mpr (h a)

end Json

open Json

theorem Constant.sound_toJson (c : Constant) : c.toJson.Sound := by
  refine sound_ofFields ?_
  simp only [List.forall_mem_cons]
  exact ⟨sound_ofText _, sound_ofText _, sound_ofText _, sound_ofBinary64 _, nofun⟩

theorem sound_textPair (first second a b : String) : (ofFields [(first, ofText a), (second, ofText b)]).Sound := by
  refine sound_ofFields ?_
  simp only [List.forall_mem_cons]
  exact ⟨sound_ofText _, sound_ofText _, nofun⟩

theorem TypeField.sound_toJson (f : TypeField) : f.toJson.Sound := sound_textPair _ _ _ _

theorem LocalSlot.sound_toJson (s : LocalSlot) : s.toJson.Sound := sound_textPair _ _ _ _

theorem Translatable.sound_toJson (t : Translatable) : t.toJson.Sound := sound_textPair _ _ _ _

theorem Signature.sound_toJson (s : Signature) : s.toJson.Sound := by
  refine sound_ofFields ?_
  simp only [List.forall_mem_append, List.forall_mem_cons]
  exact ⟨⟨⟨sound_ofText _, nofun⟩, sound_unlessEmpty sound_ofText _ _⟩, sound_ofTexts _, sound_ofTexts _, nofun⟩

theorem TypeRecord.sound_toJson (r : TypeRecord) : r.toJson.Sound := by
  refine sound_ofFields ?_
  simp only [List.forall_mem_append, List.forall_mem_cons]
  exact ⟨⟨⟨⟨⟨⟨sound_ofText _, sound_ofNat _, sound_ofNat _, nofun⟩, sound_unlessEmpty sound_ofText _ _⟩,
    sound_unlessEmpty TypeField.sound_toJson _ _⟩, sound_unlessEmpty TypeField.sound_toJson _ _⟩,
    sound_unlessEmpty Constant.sound_toJson _ _⟩, sound_unlessEmpty Signature.sound_toJson _ _⟩

theorem CodeRecord.sound_toJson (c : CodeRecord) : c.toJson.Sound := by
  refine sound_ofFields ?_
  simp only [List.forall_mem_cons]
  exact ⟨sound_array LocalSlot.sound_toJson _, sound_ofTexts _, nofun⟩

namespace Package

theorem sound_toJson (p : Package) : p.toJson.Sound := by
  refine sound_ofFields ?_
  simp only [List.forall_mem_append]
  exact ⟨⟨⟨⟨⟨sound_ifPresent (sound_ofCatalog Constant.sound_toJson) _ _,
    sound_ifPresent (sound_ofCatalog TypeRecord.sound_toJson) _ _⟩,
    sound_ifPresent (sound_ofCatalog Signature.sound_toJson) _ _⟩, sound_ifPresent sound_ofTexts _ _⟩,
    sound_ifPresent (sound_array Translatable.sound_toJson) _ _⟩,
    sound_ifPresent (sound_ofCatalog CodeRecord.sound_toJson) _ _⟩

/-- The text of a package is JSON, whatever is in the package. -/
theorem read?_encode (p : Package) : Json.read? p.encode.toList = some p.toJson := by
  rw [encode, String.toList_ofList]
  exact read?_write p.sound_toJson .pretty 0

/-! ### Decoding -/

/-- The collections of a package as JSON, under their names. -/
def fields (p : Package) : List (String × Option Json) :=
  [("Constants", p.constants.map (ofCatalog Constant.toJson)), ("Types", p.types.map (ofCatalog TypeRecord.toJson)),
    ("Funcs", p.functions.map (ofCatalog Signature.toJson)), ("Strings", p.strings.map ofTexts),
    ("TrStrings", p.trStrings.map fun l => .array (l.map Translatable.toJson)),
    ("Code", p.code.map (ofCatalog CodeRecord.toJson))]

theorem toJson_eq (p : Package) : p.toJson = ofFields (given p.fields) := by
  simp [toJson, fields, given, ifPresent_eq]

/-- All constants of a package: those under names of their own, and those in types. -/
def allConstants (p : Package) : List Constant :=
  (p.constants.map fun c => c.entries.map (·.2)).getD [] ++
    (p.types.map fun c => c.entries.flatMap (·.2.constFields)).getD []

/-- The package with other binary numbers. -/
def mapFloats (f : Binary64 → Binary64) (p : Package) : Package :=
  { p with
    constants := p.constants.map (·.map (·.mapFloat f))
    types := p.types.map (·.map (·.mapFloats f)) }

theorem mapFloats_id (p : Package) : p.mapFloats id = p := by
  have hconstant : (fun c : Constant => c.mapFloat id) = id := rfl
  have htype : (fun r : TypeRecord => r.mapFloats id) = id := by
    funext r
    simp [TypeRecord.mapFloats, hconstant]
  have hmap : ∀ {α : Type} (o : Option (Catalog α)), o.map (·.map id) = o := fun o => by
    cases o with
    | none => rfl
    | some c => rw [Option.map_some, Catalog.map_id]
  simp only [mapFloats, hconstant, htype, hmap]

/-- All of a package comes back from its JSON value, if its constants and types are read as anything. -/
theorem ofJson?_eq (p : Package) : ofJson? p.toJson = do
    let constants ← optional? (catalog? Constant.ofJson?) (p.constants.map (ofCatalog Constant.toJson))
    let types ← optional? (catalog? TypeRecord.ofJson?) (p.types.map (ofCatalog TypeRecord.toJson))
    return { p with constants := constants, types := types } := by
  have hfunctions : optional? (catalog? Signature.ofJson?) (p.functions.map (ofCatalog Signature.toJson)) =
      some p.functions :=
    optional?_self (fun _ => nofun) fun _ _ => catalog?_self fun e _ => e.2.ofJson?_toJson
  have hstrings : optional? (list? text?) (p.strings.map ofTexts) = some p.strings :=
    optional?_self (fun _ => nofun) fun l _ => list?_ofTexts l
  have htrStrings : optional? (list? Translatable.ofJson?)
      (p.trStrings.map fun l => .array (l.map Translatable.toJson)) = some p.trStrings :=
    optional?_self (fun _ => nofun) fun _ _ => mapM_map_self fun t _ => t.ofJson?_toJson
  have hcode : optional? (catalog? CodeRecord.ofJson?) (p.code.map (ofCatalog CodeRecord.toJson)) = some p.code :=
    optional?_self (fun _ => nofun) fun _ _ => catalog?_self fun e _ => e.2.ofJson?_toJson
  unfold ofJson?
  rw [toJson_eq]
  refine (record?_given (by rfl) (by decide) _).trans ?_
  simp only [fields, List.map_cons, List.map_nil, hfunctions, hstrings, htrStrings, hcode]
  rfl

/-- A package comes back from its JSON value, each binary number as what it is read as. -/
theorem ofJson?_toJson {f : Binary64 → Binary64} {p : Package} (h : ∀ c ∈ p.allConstants, c.ReadsAs f) :
    ofJson? p.toJson = some (p.mapFloats f) := by
  obtain ⟨constants, types, functions, strings, trStrings, code⟩ := p
  have hconstants : optional? (catalog? Constant.ofJson?) (constants.map (ofCatalog Constant.toJson)) =
      some (constants.map (·.map (·.mapFloat f))) := by
    refine optional?_map (fun _ => nofun) fun c hc => catalog?_ofCatalog fun e he => Constant.ofJson?_toJson (h _ ?_)
    obtain rfl : constants = some c := hc
    exact List.mem_append_left _ (List.mem_map_of_mem he)
  have htypes : optional? (catalog? TypeRecord.ofJson?) (types.map (ofCatalog TypeRecord.toJson)) =
      some (types.map (·.map (·.mapFloats f))) := by
    refine optional?_map (fun _ => nofun) fun c hc => catalog?_ofCatalog fun e he =>
      TypeRecord.ofJson?_toJson fun d hd => h d ?_
    obtain rfl : types = some c := hc
    exact List.mem_append_right _ (List.mem_flatMap.mpr ⟨e, he, hd⟩)
  rw [ofJson?_eq, hconstants, htypes]
  rfl

theorem decode_encode_mapFloats {f : Binary64 → Binary64} {p : Package} (h : ∀ c ∈ p.allConstants, c.ReadsAs f) :
    decode p.encode = .ok (p.mapFloats f) := by
  rw [decode, read?_encode, Option.bind_some, ofJson?_toJson h]

/-! ### Numbers that read back -/

/-- The number written for a binary number is read as that binary number. -/
def NumberReadsBack (x : Binary64) : Prop := binary64? (.number (jsonLayout.write x)) = some x

theorem numberReadsBack_of_bits {x : Binary64}
    (h : (binary64? (.number (jsonLayout.write x))).map (·.bits) = some x.bits) : NumberReadsBack x := by
  obtain ⟨y, hy, hbits⟩ := Option.map_eq_some_iff.mp h
  obtain ⟨bits⟩ := x
  obtain rfl : y = ⟨bits⟩ := congrArg Binary64.mk hbits
  exact hy

-- Not every number reads back: the reader scales by a rounded power of ten, so the answer may be a neighbour.
example : (binary64? (.number (jsonLayout.write ⟨0x0057D21683236FFF⟩))).map (·.bits) = some 0x0057D21683236FFE := by
  decide +kernel

/-- A package is decoded from its text, and what it is decoded to has the same text again. Asked of it is that its
    decimals can come up, that its binary numbers are finite, and that the numbers written for these read back. -/
theorem decode_encode (p : Package) (hvalues : ∀ c ∈ p.allConstants, c.value.Constructible)
    (hfinite : ∀ c ∈ p.allConstants, c.float.isFinite = true)
    (hnumbers : ∀ c ∈ p.allConstants, NumberReadsBack c.float) :
    decode p.encode = .ok p ∧ (decode p.encode).map encode = .ok p.encode := by
  have hreads : ∀ c ∈ p.allConstants, c.ReadsAs id := by
    intro c hc
    have hnumber : ofBinary64 c.float = .number (jsonLayout.write c.float) := if_pos (hfinite c hc)
    refine ⟨hvalues c hc, ?_⟩
    rw [hnumber]
    exact hnumbers c hc
  have hdecode : decode p.encode = .ok p := by
    rw [decode_encode_mapFloats hreads, mapFloats_id]
  refine ⟨hdecode, ?_⟩
  rw [hdecode]
  rfl

/-- A package with a collection absent, two present but empty, and constants of its own and of a type: a negative
    zero, π, and the least positive number. -/
def mixed : Package where
  constants := some ⟨[("geo.\"zero\"\n", ⟨"", "float", ⟨-150, 2⟩, ⟨0x8000000000000000⟩⟩),
    ("geo.pi", ⟨"pi", "float", .zero, ⟨0x400921FB54442D18⟩⟩)], by decide⟩
  types := some ⟨[("geo.Box", ⟨"Box", 8, 0xFFFFFFFF, ["T"], [⟨"side", "T"⟩], [],
    [⟨"least", "float", ⟨65, 0⟩, ⟨1⟩⟩], [⟨"area", [], ["T"], ["T"]⟩]⟩)], List.pairwise_singleton _ _⟩
  functions := none
  strings := some []
  trStrings := some [⟨"", "\\u\t"⟩]
  code := some .empty

theorem mixed_decode_encode :
    ((∀ c ∈ mixed.allConstants, c.value.Constructible) ∧ (∀ c ∈ mixed.allConstants, c.float.isFinite = true) ∧
      ∀ c ∈ mixed.allConstants, NumberReadsBack c.float) ∧
    decode mixed.encode = .ok mixed ∧ (decode mixed.encode).map encode = .ok mixed.encode := by
  have hconstants : mixed.allConstants = [⟨"", "float", ⟨-150, 2⟩, ⟨0x8000000000000000⟩⟩,
      ⟨"pi", "float", .zero, ⟨0x400921FB54442D18⟩⟩, ⟨"least", "float", ⟨65, 0⟩, ⟨1⟩⟩] := rfl
  have hvalues : ∀ c ∈ mixed.allConstants, c.value.Constructible := by
    simp only [hconstants, List.forall_mem_cons]
    exact ⟨.parsed (s := "-1.50") (by rfl), .zero, .ofChar 'A', nofun⟩
  have hfinite : ∀ c ∈ mixed.allConstants, c.float.isFinite = true := by
    simp only [hconstants, List.forall_mem_cons]
    exact ⟨by decide, by decide, by decide, nofun⟩
  have hnumbers : ∀ c ∈ mixed.allConstants, NumberReadsBack c.float := by
    simp only [hconstants, List.forall_mem_cons]
    exact ⟨numberReadsBack_of_bits (by decide +kernel), numberReadsBack_of_bits (by decide +kernel),
      numberReadsBack_of_bits (by decide +kernel), nofun⟩
  exact ⟨⟨hvalues, hfinite, hnumbers⟩, decode_encode mixed hvalues hfinite hnumbers⟩

end Package
end Backend
