import Backend.Package.Decoding
import Backend.Package.Encoding
import Backend.Proofs.Catalog
import Backend.Proofs.Decimal
import Backend.Proofs.Json.Numeral

/-! Records as JSON values and back. A record's fields are found again under their names, those that were left out
    too. Of the binary numbers it is only assumed what each is read back as, so all of a record comes back but
    what reading makes of its numbers. -/

namespace Backend
namespace Json

/-! ### Lists and catalogs -/

section
variable {α β γ : Type}

theorem mapM_map_eq_some {f : α → β} {g : β → Option γ} {h : α → γ} {l : List α} (hl : ∀ a ∈ l, g (f a) = some (h a)) :
    (l.map f).mapM g = some (l.map h) := by
  induction l with
  | nil => rfl
  | cons a l ih =>
    have ha := hl a List.mem_cons_self
    have hrest := ih fun b hb => hl b (List.mem_cons_of_mem a hb)
    rw [List.map_cons, List.mapM_cons, ha, hrest]
    rfl

theorem mapM_map_self {f : α → β} {g : β → Option α} {l : List α} (hl : ∀ a ∈ l, g (f a) = some a) :
    (l.map f).mapM g = some l := by
  have h : (l.map f).mapM g = some (l.map id) := mapM_map_eq_some hl
  rwa [List.map_id] at h

theorem list?_array {encode : α → Json} {decode : Json → Option γ} {f : α → γ} {l : List α}
    (h : ∀ a ∈ l, decode (encode a) = some (f a)) : list? decode (.array (l.map encode)) = some (l.map f) :=
  mapM_map_eq_some h

theorem list?_ofTexts (l : List String) : list? text? (ofTexts l) = some l := mapM_map_self fun _ _ => rfl

theorem catalog?_eq (encode : α → Json) (decode : Json → Option γ) (c : Catalog α) :
    catalog? decode (ofCatalog encode c) =
      ((c.entries.map fun e => (some e.1, encode e.2)).mapM (named? decode)).map Catalog.ofEntries := by
  simp only [ofCatalog, ofFields, List.map_map]
  rfl

theorem catalog?_ofCatalog {encode : α → Json} {decode : Json → Option γ} {f : α → γ} {c : Catalog α}
    (h : ∀ e ∈ c.entries, decode (encode e.2) = some (f e.2)) : catalog? decode (ofCatalog encode c) = some (c.map f) := by
  have hmembers : (c.entries.map fun e => (some e.1, encode e.2)).mapM (named? decode) =
      some (c.entries.map fun e => (e.1, f e.2)) :=
    mapM_map_eq_some fun e he => by simp [named?, h e he]
  rw [catalog?_eq, hmembers]
  exact congrArg some (Catalog.ofEntries_entries (c.map f))

theorem catalog?_self {encode : α → Json} {decode : Json → Option α} {c : Catalog α}
    (h : ∀ e ∈ c.entries, decode (encode e.2) = some e.2) : catalog? decode (ofCatalog encode c) = some c := by
  have hc : catalog? decode (ofCatalog encode c) = some (c.map id) := catalog?_ofCatalog h
  rwa [Catalog.map_id] at hc

end

/-! ### Fields -/

/-- The members of a record, of all its fields those that are not left out. -/
def given (fields : List (String × Option Json)) : List (String × Json) :=
  fields.flatMap fun f => (f.2.map (f.1, ·)).toList

theorem mem_given {fields : List (String × Option Json)} {name : String} {v : Json} (h : (name, v) ∈ given fields) :
    (name, some v) ∈ fields := by
  obtain ⟨⟨n, o⟩, hmem, hv⟩ := List.mem_flatMap.mp h
  obtain ⟨w, rfl, heq⟩ := Option.map_eq_some_iff.mp (Option.mem_toList.mp hv)
  cases heq
  exact hmem

theorem filter_given_of_not_mem {fields : List (String × Option Json)} {name : String}
    (h : name ∉ fields.map (·.1)) : (given fields).filter (·.1 = name) = [] := by
  rw [List.filter_eq_nil_iff]
  rintro ⟨n, v⟩ hv hname
  obtain rfl : n = name := of_decide_eq_true hname
  exact h (List.mem_map.mpr ⟨_, mem_given hv, rfl⟩)

/-- A field is found by its name, if the names are distinct. -/
theorem member?_given {fields : List (String × Option Json)} (hn : (fields.map (·.1)).Nodup)
    {f : String × Option Json} (hf : f ∈ fields) : member? (given fields) f.1 = some f.2 := by
  -- Around the field no other has its name, so just its own member passes the filter.
  obtain ⟨before, after, rfl⟩ := List.append_of_mem hf
  rw [List.map_append, List.map_cons, List.nodup_append] at hn
  obtain ⟨-, hafter, hbefore⟩ := hn
  have hb : f.1 ∉ before.map (·.1) := fun hmem => hbefore _ hmem _ List.mem_cons_self rfl
  have ha : f.1 ∉ after.map (·.1) := (List.nodup_cons.mp hafter).1
  have hfilter : (given (before ++ f :: after)).filter (·.1 = f.1) = (f.2.map (f.1, ·)).toList := by
    have hsplit : given (before ++ f :: after) = given before ++ ((f.2.map (f.1, ·)).toList ++ given after) := by
      simp [given]
    rw [hsplit, List.filter_append, List.filter_append, filter_given_of_not_mem hb, filter_given_of_not_mem ha,
      List.nil_append, List.append_nil]
    cases f.2 with
    | none => rfl
    | some v => simp
  unfold member?
  rw [hfilter]
  cases f.2 <;> rfl

/-- The fields of a record come back in order, each as it was given or left out. -/
theorem record?_given {γ : Type} {names : List String} {fields : List (String × Option Json)}
    (hnames : fields.map (·.1) = names) (hn : names.Nodup) (k : List (Option Json) → Option γ) :
    (record? names (ofFields (given fields)) >>= k) = k (fields.map (·.2)) := by
  have hentries : ((given fields).map fun m => (some m.1, m.2)).mapM (named? some) = some (given fields) :=
    mapM_map_self fun _ _ => rfl
  have hfields : (fields.map (·.1)).mapM (member? (given fields)) = some (fields.map (·.2)) :=
    mapM_map_eq_some fun f hf => member?_given (hnames ▸ hn) hf
  subst hnames
  show ((((given fields).map fun m => (some m.1, m.2)).mapM (named? some) >>= fun entries =>
    (fields.map (·.1)).mapM (member? entries)) >>= k) = _
  rw [hentries]
  show ((fields.map (·.1)).mapM (member? (given fields)) >>= k) = _
  rw [hfields]
  rfl

/-- The value of a list that is left out if it is empty. -/
def ifAny {α : Type} (encode : α → Json) (l : List α) : Option Json :=
  if l.isEmpty then none else some (.array (l.map encode))

theorem unlessEmpty_eq {α : Type} (name : String) (encode : α → Json) (l : List α) :
    unlessEmpty name encode l = ((ifAny encode l).map (name, ·)).toList := by
  unfold unlessEmpty ifAny
  split <;> rfl

theorem listOrEmpty?_ifAny {α γ : Type} {encode : α → Json} {decode : Json → Option γ} {f : α → γ} {l : List α}
    (h : ∀ a ∈ l, decode (encode a) = some (f a)) : listOrEmpty? decode (ifAny encode l) = some (l.map f) := by
  unfold ifAny
  split
  · rename_i hempty
    rw [List.isEmpty_iff.mp hempty]
    rfl
  · exact list?_array h

theorem listOrEmpty?_self {α : Type} {encode : α → Json} {decode : Json → Option α} {l : List α}
    (h : ∀ a ∈ l, decode (encode a) = some a) : listOrEmpty? decode (ifAny encode l) = some l := by
  have hl : listOrEmpty? decode (ifAny encode l) = some (l.map id) := listOrEmpty?_ifAny h
  rwa [List.map_id] at hl

theorem optional?_some {α : Type} (decode : Json → Option α) {v : Json} (h : v ≠ .null) :
    optional? decode (some v) = (decode v).map some := by
  unfold optional?
  split
  · rename_i heq
    cases heq
  · rename_i heq
    exact absurd (Option.some.inj heq) h
  · rename_i heq
    cases heq
    rfl

/-- A collection that may be absent. Nothing that is there is written as null. -/
theorem optional?_map {α γ : Type} {encode : α → Json} {decode : Json → Option γ} {f : α → γ} {o : Option α}
    (hnull : ∀ a, encode a ≠ .null) (h : ∀ a ∈ o, decode (encode a) = some (f a)) :
    optional? decode (o.map encode) = some (o.map f) := by
  cases o with
  | none => rfl
  | some a =>
    rw [Option.map_some, optional?_some decode (hnull a), h a rfl]
    rfl

theorem optional?_self {α : Type} {encode : α → Json} {decode : Json → Option α} {o : Option α}
    (hnull : ∀ a, encode a ≠ .null) (h : ∀ a ∈ o, decode (encode a) = some a) :
    optional? decode (o.map encode) = some o := by
  have ho : optional? decode (o.map encode) = some (o.map id) := optional?_map hnull h
  rwa [Option.map_id_apply] at ho

theorem ifPresent_eq {α : Type} (name : String) (encode : α → Json) (o : Option α) :
    ifPresent name encode o = ((o.map encode).map (name, ·)).toList := by
  rw [Option.map_map]
  rfl

/-! ### Numbers -/

theorem uint32?_ofNat (n : UInt32) : uint32? (ofNat n.toNat) = some n := by
  have hlt : n.toNat < 0x100000000 := n.toNat_lt
  simp [uint32?, ofNat, numeral?_toDigits, Nat.ofDigitChars_ten_toDigits, hlt]

theorem decimal?_text {d : Decimal} (h : d.Constructible) : decimal? (ofText d.text) = some d := by
  simp [decimal?, ofText, text?, Decimal.parse_text h.bounds.1 h.bounds.2]

end Json

open Json

/-! ### Records -/

theorem textPair?_ofFields {first second : String} (h : first ≠ second) (a b : String) :
    textPair? first second (ofFields [(first, ofText a), (second, ofText b)]) = some (a, b) := by
  have hfields : ofFields [(first, ofText a), (second, ofText b)] =
      ofFields (given [(first, some (ofText a)), (second, some (ofText b))]) := rfl
  unfold textPair?
  rw [hfields]
  exact record?_given rfl (by simpa using h) _

theorem TypeField.ofJson?_toJson (f : TypeField) : TypeField.ofJson? f.toJson = some f := by
  rw [TypeField.ofJson?, TypeField.toJson, textPair?_ofFields (by decide)]
  rfl

theorem LocalSlot.ofJson?_toJson (s : LocalSlot) : LocalSlot.ofJson? s.toJson = some s := by
  rw [LocalSlot.ofJson?, LocalSlot.toJson, textPair?_ofFields (by decide)]
  rfl

theorem Translatable.ofJson?_toJson (t : Translatable) : Translatable.ofJson? t.toJson = some t := by
  rw [Translatable.ofJson?, Translatable.toJson, textPair?_ofFields (by decide)]
  rfl

theorem Signature.ofJson?_toJson (s : Signature) : Signature.ofJson? s.toJson = some s := by
  have hfields : s.toJson = ofFields (given [("Name", some (ofText s.name)), ("TypeArgs", ifAny ofText s.typeArgs),
      ("Params", some (ofTexts s.params)), ("Returns", some (ofTexts s.returns))]) := by
    simp [Signature.toJson, given, unlessEmpty_eq]
  have htypeArgs : listOrEmpty? text? (ifAny ofText s.typeArgs) = some s.typeArgs := listOrEmpty?_self fun _ _ => rfl
  have htexts : ∀ l, listOrEmpty? text? (some (ofTexts l)) = some l := list?_ofTexts
  unfold Signature.ofJson?
  rw [hfields]
  refine (record?_given (by rfl) (by decide) _).trans ?_
  simp only [List.map_cons, List.map_nil, htypeArgs, htexts]
  rfl

theorem CodeRecord.ofJson?_toJson (c : CodeRecord) : CodeRecord.ofJson? c.toJson = some c := by
  have hfields : c.toJson = ofFields (given [("Locals", some (.array (c.locals.map LocalSlot.toJson))),
      ("Ops", some (ofTexts c.ops))]) := rfl
  have hlocals : list? LocalSlot.ofJson? (.array (c.locals.map LocalSlot.toJson)) = some c.locals :=
    mapM_map_self fun s _ => s.ofJson?_toJson
  unfold CodeRecord.ofJson?
  rw [hfields]
  refine (record?_given (by rfl) (by decide) _).trans ?_
  simp only [List.map_cons, List.map_nil, hlocals, list?_ofTexts]
  rfl

/-- The constant with another binary number. -/
def Constant.mapFloat (f : Binary64 → Binary64) (c : Constant) : Constant := { c with float := f c.float }

/-- The type with other binary numbers in its constants. -/
def TypeRecord.mapFloats (f : Binary64 → Binary64) (r : TypeRecord) : TypeRecord :=
  { r with constFields := r.constFields.map (·.mapFloat f) }

/-- What is known of a constant that is written: its exact number can come up, and its binary number is read back as
    what `f` makes of it. -/
structure Constant.ReadsAs (f : Binary64 → Binary64) (c : Constant) : Prop where
  value : c.value.Constructible
  float : binary64? (ofBinary64 c.float) = some (f c.float)

/-- All of a constant comes back, if its binary number is read as anything. -/
theorem Constant.ofJson?_eq {c : Constant} (h : c.value.Constructible) :
    Constant.ofJson? c.toJson = (binary64? (ofBinary64 c.float)).map fun x => { c with float := x } := by
  have hfields : c.toJson = ofFields (given [("Name", some (ofText c.name)), ("TypeName", some (ofText c.typeName)),
      ("Value", some (ofText c.value.text)), ("ValueFloat", some (ofBinary64 c.float))]) := rfl
  have hvalue := decimal?_text h
  unfold Constant.ofJson?
  rw [hfields]
  refine (record?_given (by rfl) (by decide) _).trans ?_
  simp only [List.map_cons, List.map_nil, hvalue]
  cases binary64? (ofBinary64 c.float) <;> rfl

theorem Constant.ofJson?_toJson {f : Binary64 → Binary64} {c : Constant} (h : c.ReadsAs f) :
    Constant.ofJson? c.toJson = some (c.mapFloat f) := by
  rw [ofJson?_eq h.value, h.float]
  rfl

/-- All of a type comes back, if its constants are read as anything. -/
theorem TypeRecord.ofJson?_eq (r : TypeRecord) :
    TypeRecord.ofJson? r.toJson =
      (listOrEmpty? Constant.ofJson? (ifAny Constant.toJson r.constFields)).map fun cs =>
        { r with constFields := cs } := by
  have hfields : r.toJson = ofFields (given [("Name", some (ofText r.name)),
      ("Alignment", some (ofNat r.alignment.toNat)), ("Size", some (ofNat r.size.toNat)),
      ("TypeArgs", ifAny ofText r.typeArgs), ("Fields", ifAny TypeField.toJson r.fields),
      ("StaticFields", ifAny TypeField.toJson r.staticFields), ("ConstFields", ifAny Constant.toJson r.constFields),
      ("Methods", ifAny Signature.toJson r.methods)]) := by
    simp [TypeRecord.toJson, given, unlessEmpty_eq]
  have htypeArgs : listOrEmpty? text? (ifAny ofText r.typeArgs) = some r.typeArgs := listOrEmpty?_self fun _ _ => rfl
  have hfield : ∀ l : List TypeField, listOrEmpty? TypeField.ofJson? (ifAny TypeField.toJson l) = some l :=
    fun _ => listOrEmpty?_self fun a _ => a.ofJson?_toJson
  have hmethods : listOrEmpty? Signature.ofJson? (ifAny Signature.toJson r.methods) = some r.methods :=
    listOrEmpty?_self fun a _ => a.ofJson?_toJson
  unfold TypeRecord.ofJson?
  rw [hfields]
  refine (record?_given (by rfl) (by decide) _).trans ?_
  simp only [List.map_cons, List.map_nil, uint32?_ofNat, htypeArgs, hfield, hmethods]
  cases listOrEmpty? Constant.ofJson? (ifAny Constant.toJson r.constFields) <;> rfl

theorem TypeRecord.ofJson?_toJson {f : Binary64 → Binary64} {r : TypeRecord}
    (h : ∀ c ∈ r.constFields, Constant.ReadsAs f c) : TypeRecord.ofJson? r.toJson = some (r.mapFloats f) := by
  rw [ofJson?_eq, listOrEmpty?_ifAny fun c hc => Constant.ofJson?_toJson (h c hc)]
  rfl

end Backend
