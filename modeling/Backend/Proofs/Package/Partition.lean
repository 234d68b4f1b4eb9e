import Backend.Proofs.Package.Requests
import Backend.Proofs.Package.RoundTrip

/-! The two views of what a builder holds. Signatures and code are added together, so they are under the same names,
    and methods are taken off a type before it is stored. So the header and the object are accepted as what they are,
    and the object counts as a header only if there is nothing in it that the header leaves out. -/

namespace Backend
open Json

/-! ### Packages -/

namespace Package

/-- What a package holds, an absent collection being an empty one. -/
def contents (p : Package) : Builder where
  constants := p.constants.getD .empty
  types := p.types.getD .empty
  functions := p.functions.getD .empty
  code := p.code.getD .empty
  strings := p.strings.getD []
  trStrings := p.trStrings.getD []

/-- The collections of a package under their names: how much each holds, if it is present. -/
def sizes (p : Package) : List (String × Option Nat) :=
  [("Constants", p.constants.map (·.entries.length)), ("Types", p.types.map (·.entries.length)),
    ("Funcs", p.functions.map (·.entries.length)), ("Strings", p.strings.map (·.length)),
    ("TrStrings", p.trStrings.map (·.length)), ("Code", p.code.map (·.entries.length))]

/-- No collection is present but empty. -/
def NoneEmpty (p : Package) : Prop := ∀ s ∈ p.sizes, s.2 ≠ some 0

/-- The names of the collections that are present and hold something. -/
def heldNames (p : Package) : List String := (p.sizes.filter fun s => 0 < s.2.getD 0).map (·.1)

/-- The names at the top of the text of a package, if it is a JSON object. -/
def memberNames? (p : Package) : Option (List (Option String)) :=
  match Json.read? p.encode.toList with
  | some (.object members) => some (members.map (·.1))
  | _ => none

theorem names_given (fields : List (String × Option Json)) :
    (given fields).map (·.1) = (fields.filter (·.2.isSome)).map (·.1) := by
  induction fields with
  | nil => rfl
  | cons f rest ih =>
    obtain ⟨name, o⟩ := f
    have hcons : given ((name, o) :: rest) = (o.map (name, ·)).toList ++ given rest := rfl
    cases o with
    | none => simpa [hcons] using ih
    | some v => simpa [hcons] using ih

/-- The text names the collections that are present. -/
theorem memberNames?_eq (p : Package) :
    p.memberNames? = some ((p.sizes.filter (·.2.isSome)).map (some ·.1)) := by
  have hmarks : p.fields.map (fun f => (f.1, f.2.isSome)) = p.sizes.map fun s => (s.1, s.2.isSome) := by
    simp [fields, sizes]
  have hfilter : ∀ {α : Type} (l : List (String × Option α)),
      (l.filter (·.2.isSome)).map (·.1) = ((l.map fun f => (f.1, f.2.isSome)).filter (·.2)).map (·.1) := by
    intro α l
    rw [List.filter_map, List.map_map]
    rfl
  have hnames : (given p.fields).map (·.1) = (p.sizes.filter (·.2.isSome)).map (·.1) := by
    rw [names_given, hfilter, hmarks, ← hfilter]
  have hmembers : ((given p.fields).map fun m => (some m.1, m.2)).map (·.1) =
      ((given p.fields).map (·.1)).map some := by
    rw [List.map_map, List.map_map]
    rfl
  unfold memberNames?
  rw [read?_encode, toJson_eq]
  show some (((given p.fields).map fun m => (some m.1, m.2)).map (·.1)) = _
  rw [hmembers, hnames, List.map_map]
  rfl

theorem NoneEmpty.memberNames?_eq {p : Package} (h : p.NoneEmpty) :
    p.memberNames? = some (p.heldNames.map some) := by
  have hheld : p.sizes.filter (·.2.isSome) = p.sizes.filter fun s => 0 < s.2.getD 0 := by
    refine List.filter_congr fun s hs => ?_
    have hne := h s hs
    cases hsize : s.2 with
    | none => rfl
    | some n =>
      rw [hsize] at hne
      have hpos : 0 < n := Nat.pos_of_ne_zero fun hn => hne (hn ▸ rfl)
      simp [hpos]
  rw [Package.memberNames?_eq, hheld, heldNames, List.map_map]
  rfl

/-! ### Checks -/

theorem all_eq_getD {α : Type} {P : α → Bool} {d : α} (hd : P d = true) (o : Option α) : o.all P = P (o.getD d) := by
  cases o with
  | none => exact hd.symm
  | some a => rfl

theorem any_eq_getD {α : Type} {P : α → Bool} {d : α} (hd : P d = false) (o : Option α) : o.any P = P (o.getD d) := by
  cases o with
  | none => exact hd.symm
  | some a => rfl

theorem check_header_iff (p : Package) : p.check .header = .ok () ↔
    p.contents.code.keys = [] ∧ p.contents.strings = [] ∧ p.contents.trStrings = [] := by
  have hcode : p.code.all (·.isEmpty) = p.contents.code.isEmpty := all_eq_getD rfl p.code
  have hstrings : p.strings.all (·.isEmpty) = p.contents.strings.isEmpty := all_eq_getD rfl p.strings
  have htrStrings : p.trStrings.all (·.isEmpty) = p.contents.trStrings.isEmpty := all_eq_getD rfl p.trStrings
  have hheader : p.isHeader = true ↔
      p.contents.code.keys = [] ∧ p.contents.strings = [] ∧ p.contents.trStrings = [] := by
    rw [isHeader, hcode, hstrings, htrStrings, Bool.and_eq_true, Bool.and_eq_true, Catalog.isEmpty_iff_keys,
      List.isEmpty_iff, List.isEmpty_iff, and_assoc]
  rw [← hheader, check]
  split
  · rename_i h
    exact iff_of_true rfl h
  · rename_i h
    exact iff_of_false nofun h

theorem check_object_iff (p : Package) : p.check .object = .ok () ↔
    ∀ name ∈ p.contents.functions.keys, name ∈ p.contents.code.keys := by
  have hnames : p.functionNames = p.contents.functions.keys := by
    unfold functionNames contents
    cases p.functions <;> rfl
  have hcode : ∀ name, p.hasCode name = true ↔ name ∈ p.contents.code.keys := by
    intro name
    have hany : p.hasCode name = p.contents.code.contains name := any_eq_getD rfl p.code
    rw [hany, Catalog.contains_iff_mem_keys]
  rw [check, hnames]
  split
  · rename_i name h
    refine iff_of_false nofun fun hall => ?_
    have hmissing := List.find?_some h
    have hhas : p.hasCode name = true := (hcode name).mpr (hall name (List.mem_of_find?_eq_some h))
    simp [hhas] at hmissing
  · rename_i h
    refine iff_of_true rfl fun name hname => (hcode name).mp ?_
    simpa using List.find?_eq_none.mp h name hname

end Package

namespace Builder

/-! ### The two views -/

section
variable {α : Type}

theorem getD_present (c : Catalog α) : (present c).getD .empty = c := by
  unfold present
  split
  · rename_i h
    exact Catalog.ext (List.isEmpty_iff.mp h).symm
  · rfl

theorem getD_presentPool (pool : List α) : (presentPool pool).getD [] = pool := by
  unfold presentPool
  split
  · rename_i h
    exact (List.isEmpty_iff.mp h).symm
  · rfl

theorem size_present (c : Catalog α) : (present c).map (·.entries.length) ≠ some 0 := by
  unfold present
  split
  · nofun
  · rename_i h
    intro hzero
    exact h (List.isEmpty_iff_length_eq_zero.mpr (Option.some.inj hzero))

theorem size_presentPool (pool : List α) : (presentPool pool).map (·.length) ≠ some 0 := by
  unfold presentPool
  split
  · nofun
  · rename_i h
    intro hzero
    exact h (List.isEmpty_iff_length_eq_zero.mpr (Option.some.inj hzero))

end

/-- The object holds all that was collected. -/
theorem contents_object (b : Builder) : (b.build .object).contents = b := by
  simp [Package.contents, build, buildObject, buildHeader, getD_present, getD_presentPool]

theorem noneEmpty_build (b : Builder) (kind : PackageKind) : (b.build kind).NoneEmpty := by
  unfold Package.NoneEmpty Package.sizes
  simp only [List.forall_mem_cons]
  cases kind with
  | header => exact ⟨size_present _, size_present _, size_present _, nofun, nofun, nofun, nofun⟩
  | object =>
    exact ⟨size_present _, size_present _, size_present _, size_presentPool _, size_presentPool _, size_present _, nofun⟩

/-! ### What every change keeps -/

/-- Functions and code are under the same names, and no type has methods. -/
structure Partitioned (b : Builder) : Prop where
  keys : b.functions.keys = b.code.keys
  bare : ∀ e ∈ b.types.entries, e.2.methods = []

theorem Partitioned.change {b b' : Builder} (h : Change b b') (hb : b.Partitioned) : b'.Partitioned := by
  cases h with
  | constant c free => exact ⟨hb.keys, hb.bare⟩
  | type free bare =>
    refine ⟨hb.keys, fun e he => ?_⟩
    rcases Catalog.mem_insertEntry he with rfl | he
    · exact bare
    · exact hb.bare e he
  | function signature code free => exact ⟨Catalog.keys_insert hb.keys _ signature code, hb.bare⟩
  | string text => exact ⟨hb.keys, hb.bare⟩
  | trString t => exact ⟨hb.keys, hb.bare⟩

theorem partitioned_filled (requests : List Request) : (filled requests).Partitioned :=
  filled_induction ⟨rfl, nofun⟩ Partitioned.change requests

theorem Partitioned.functions_none_iff {b : Builder} (hb : b.Partitioned) :
    b.code.keys = [] ↔ ∀ name, b.hasFunction name = false := by
  rw [← hb.keys, List.eq_nil_iff_forall_not_mem]
  refine forall_congr' fun name => ?_
  rw [← Catalog.contains_iff_mem_keys, Bool.not_eq_true]
  rfl

/-- The two views of a builder, whatever it was asked to add. The object holds all that was collected, and the header
    the same constants, types and signatures and nothing else. Each passes its own check, and the object that of a
    header just if it has no function and no text. Neither has a collection that is empty, and their texts name just
    the collections that are not. -/
theorem filled_views (requests : List Request) :
    let b := filled requests
    let header := b.build .header
    let object := b.build .object
    (b.functions.keys = b.code.keys ∧ ∀ e ∈ b.types.entries, e.2.methods = []) ∧
    (header.check .header = .ok () ∧ object.check .object = .ok ()) ∧
    (header.code = none ∧ header.strings = none ∧ header.trStrings = none) ∧
    (header.constants = object.constants ∧ header.types = object.types ∧ header.functions = object.functions) ∧
    object.contents = b ∧
    (∀ kind, (b.build kind).NoneEmpty ∧ (b.build kind).memberNames? = some ((b.build kind).heldNames.map some)) ∧
    (object.check .header = .ok () ↔ (∀ name, b.hasFunction name = false) ∧ b.strings = [] ∧ b.trStrings = []) := by
  intro b header object
  have hb : b.Partitioned := partitioned_filled requests
  have hobject : object.contents = b := contents_object b
  have hpresent : ∀ kind, (b.build kind).NoneEmpty := noneEmpty_build b
  refine ⟨⟨hb.keys, hb.bare⟩, ⟨?_, ?_⟩, ⟨rfl, rfl, rfl⟩, ⟨rfl, rfl, rfl⟩, hobject,
    fun kind => ⟨hpresent kind, (hpresent kind).memberNames?_eq⟩, ?_⟩
  · exact header.check_header_iff.mpr ⟨rfl, rfl, rfl⟩
  · rw [object.check_object_iff, hobject, hb.keys]
    exact fun _ => id
  · rw [object.check_header_iff, hobject, hb.functions_none_iff]

end Builder
end Backend
