/-! Catalogs: values under names, in the order of the names. A catalog has one form for its contents: two
    catalogs with the same values under the same names are equal, whatever the order they were filled in. -/

namespace Backend

/-- Values under names. The names ascend strictly. -/
structure Catalog (α : Type) where
  entries : List (String × α)
  ascending : entries.Pairwise fun a b => a.1 < b.1

namespace Catalog
variable {α : Type}

def empty : Catalog α := ⟨[], .nil⟩

instance : Inhabited (Catalog α) := ⟨empty⟩

def keys (c : Catalog α) : List String := c.entries.map (·.1)

def isEmpty (c : Catalog α) : Bool := c.entries.isEmpty

def get? (c : Catalog α) (key : String) : Option α := c.entries.lookup key

def contains (c : Catalog α) (key : String) : Bool := (c.get? key).isSome

/-! ### Putting a value in -/

/-- The entries with a value put at the place of its name, over the one that was there. -/
def insertEntry (key : String) (value : α) : List (String × α) → List (String × α)
  | [] => [(key, value)]
  | e :: rest =>
    if key < e.1 then (key, value) :: e :: rest
    else if key = e.1 then (key, value) :: rest
    else e :: insertEntry key value rest

theorem mem_insertEntry {key : String} {value : α} {e : String × α} {l : List (String × α)}
    (h : e ∈ insertEntry key value l) : e = (key, value) ∨ e ∈ l := by
  induction l with
  | nil => exact Or.inl (List.mem_singleton.mp h)
  | cons x rest ih =>
    rw [insertEntry] at h
    split at h
    · exact List.mem_cons.mp h
    · split at h
      · rcases List.mem_cons.mp h with rfl | h'
        · exact Or.inl rfl
        · exact Or.inr (List.mem_cons_of_mem _ h')
      · rcases List.mem_cons.mp h with rfl | h'
        · exact Or.inr List.mem_cons_self
        · rcases ih h' with rfl | h''
          · exact Or.inl rfl
          · exact Or.inr (List.mem_cons_of_mem _ h'')

theorem lt_of_not_lt_of_ne {a b : String} (h : ¬a < b) (hne : a ≠ b) : b < a := by
  rcases Decidable.em (b < a) with hba | hba
  · exact hba
  · exact absurd (String.le_antisymm hba h) hne

theorem ascending_insertEntry {key : String} {value : α} {l : List (String × α)}
    (h : l.Pairwise fun a b => a.1 < b.1) : (insertEntry key value l).Pairwise fun a b => a.1 < b.1 := by
  induction l with
  | nil => exact List.pairwise_singleton _ _
  | cons x rest ih =>
    obtain ⟨hx, hrest⟩ := List.pairwise_cons.mp h
    rw [insertEntry]
    split
    · rename_i hlt
      refine List.pairwise_cons.mpr ⟨fun e he => ?_, h⟩
      rcases List.mem_cons.mp he with rfl | he'
      · exact hlt
      · exact String.lt_trans hlt (hx e he')
    · rename_i hlt
      split
      · rename_i heq
        exact List.pairwise_cons.mpr ⟨fun e he => heq ▸ hx e he, hrest⟩
      · rename_i hne
        refine List.pairwise_cons.mpr ⟨fun e he => ?_, ih hrest⟩
        rcases mem_insertEntry he with rfl | he'
        · exact lt_of_not_lt_of_ne hlt hne
        · exact hx e he'

/-- Puts a value under a name, over the one that was there. -/
def insert (c : Catalog α) (key : String) (value : α) : Catalog α :=
  ⟨insertEntry key value c.entries, ascending_insertEntry c.ascending⟩

theorem lookup_cons (e : String × α) (l : List (String × α)) (name : String) :
    (e :: l).lookup name = if name = e.1 then some e.2 else l.lookup name := by
  rw [List.lookup_cons]
  split
  · rename_i h
    rw [if_pos (beq_iff_eq.mp h)]
  · rename_i h
    rw [if_neg (beq_eq_false_iff_ne.mp h)]

theorem lookup_insertEntry {key : String} {value : α} {l : List (String × α)} (name : String) :
    (insertEntry key value l).lookup name = if name = key then some value else l.lookup name := by
  induction l with
  | nil => exact lookup_cons (key, value) [] name
  | cons e rest ih =>
    rw [insertEntry]
    split
    · exact lookup_cons (key, value) (e :: rest) name
    · split
      · rename_i heq
        rw [lookup_cons, lookup_cons, ← heq]
        by_cases h : name = key
        · rw [if_pos h, if_pos h]
        · rw [if_neg h, if_neg h, if_neg h]
      · rename_i hne
        rw [lookup_cons, lookup_cons, ih]
        by_cases h : name = key
        · rw [if_pos h, if_neg (h ▸ hne), if_pos h]
        · rw [if_neg h, if_neg h]

/-- A name finds the value just put under it, and any other name what it found before. -/
theorem get?_insert (c : Catalog α) (key name : String) (value : α) :
    (c.insert key value).get? name = if name = key then some value else c.get? name :=
  lookup_insertEntry name

theorem get?_empty (name : String) : (empty : Catalog α).get? name = none := rfl

theorem contains_insert (c : Catalog α) (key name : String) (value : α) :
    (c.insert key value).contains name = true ↔ name = key ∨ c.contains name = true := by
  rw [contains, get?_insert]
  by_cases h : name = key
  · simp [h]
  · simp [h, contains]

/-- The entries put in one by one: of two values under one name the later stays. -/
def ofEntries (l : List (String × α)) : Catalog α := l.foldl (fun c e => c.insert e.1 e.2) empty

/-- Takes a name out. -/
def erase (c : Catalog α) (key : String) : Catalog α :=
  ⟨c.entries.filter (·.1 ≠ key), c.ascending.filter _⟩

instance [BEq α] : BEq (Catalog α) := ⟨fun a b => a.entries == b.entries⟩

theorem ext {a b : Catalog α} (h : a.entries = b.entries) : a = b := by
  cases a
  cases b
  cases h
  rfl

end Catalog
end Backend
