import Backend.Catalog
import Mathlib.Data.List.Nodup

/-! Catalogs as lists of entries. Entries that ascend already are put in one after the other at the end, so a
    catalog is filled again from its own entries; and the names of a catalog do not depend on its values. A catalog is
    known by what its names find, so entries of distinct names can be put in in any order. -/

namespace Backend
namespace Catalog
variable {α β : Type}

/-! ### Filling a catalog -/

theorem not_lt_of_lt {a b : String} (h : a < b) : ¬b < a := fun h' => String.lt_irrefl a (String.lt_trans h h')

/-- A name after all others goes to the end. -/
theorem insertEntry_of_lt {key : String} (value : α) {l : List (String × α)} (h : ∀ e ∈ l, e.1 < key) :
    insertEntry key value l = l ++ [(key, value)] := by
  induction l with
  | nil => rfl
  | cons e rest ih =>
    have he : e.1 < key := h e List.mem_cons_self
    have hne : key ≠ e.1 := fun heq => String.lt_irrefl key (heq ▸ he)
    rw [insertEntry, if_neg (not_lt_of_lt he), if_neg hne, ih fun d hd => h d (List.mem_cons_of_mem e hd)]
    rfl

theorem entries_foldl_insert (l : List (String × α)) (c : Catalog α)
    (h : (c.entries ++ l).Pairwise fun a b => a.1 < b.1) :
    (l.foldl (fun c e => c.insert e.1 e.2) c).entries = c.entries ++ l := by
  induction l generalizing c with
  | nil => exact (List.append_nil _).symm
  | cons e l ih =>
    obtain ⟨-, -, hbefore⟩ := List.pairwise_append.mp h
    have hinsert : (c.insert e.1 e.2).entries = c.entries ++ [e] :=
      insertEntry_of_lt e.2 fun d hd => hbefore d hd e List.mem_cons_self
    rw [List.foldl_cons, ih _ ?_, hinsert, List.append_assoc]
    · rfl
    · rw [hinsert, List.append_assoc]
      exact h

/-- A catalog is filled again from its own entries. -/
theorem ofEntries_entries (c : Catalog α) : ofEntries c.entries = c :=
  ext (entries_foldl_insert c.entries empty c.ascending)

/-! ### Values under the same names -/

/-- The catalog with all values changed. -/
def map (f : α → β) (c : Catalog α) : Catalog β where
  entries := c.entries.map fun e => (e.1, f e.2)
  ascending := List.pairwise_map.mpr c.ascending

theorem map_id (c : Catalog α) : c.map id = c := ext (List.map_id c.entries)

/-- Where a name goes depends on the names alone. -/
theorem map_fst_insertEntry {key : String} (a : α) (b : β) {l : List (String × α)} {r : List (String × β)}
    (h : l.map (·.1) = r.map (·.1)) : (insertEntry key a l).map (·.1) = (insertEntry key b r).map (·.1) := by
  induction l generalizing r with
  | nil =>
    cases r with
    | nil => rfl
    | cons e r => cases h
  | cons d l ih =>
    cases r with
    | nil => cases h
    | cons e r =>
      obtain ⟨hhead, htail⟩ := List.cons.inj h
      have hrest := ih htail
      simp only [insertEntry, hhead]
      split
      · simp [hhead, htail]
      · split
        · simp [htail]
        · simp [hhead, hrest]

theorem keys_insert {c : Catalog α} {d : Catalog β} (h : c.keys = d.keys) (key : String) (a : α) (b : β) :
    (c.insert key a).keys = (d.insert key b).keys := map_fst_insertEntry a b h

theorem contains_iff_mem_keys {c : Catalog α} {key : String} : c.contains key = true ↔ key ∈ c.keys := by
  unfold contains get? keys
  induction c.entries with
  | nil => simp
  | cons e l ih =>
    rw [lookup_cons, List.map_cons, List.mem_cons]
    by_cases h : key = e.1
    · simp [h]
    · simp [h, ih]

theorem isEmpty_iff_keys {c : Catalog α} : c.isEmpty = true ↔ c.keys = [] := by
  rw [isEmpty, List.isEmpty_iff, keys, List.map_eq_nil_iff]

/-! ### What names find -/

theorem lookup_eq_some_iff_mem {l : List (String × α)} (h : l.Pairwise fun a b => a.1 < b.1) {key : String}
    {value : α} : l.lookup key = some value ↔ (key, value) ∈ l := by
  induction l with
  | nil => simp
  | cons e l ih =>
    obtain ⟨hlt, hl⟩ := List.pairwise_cons.mp h
    rw [lookup_cons, List.mem_cons]
    by_cases hkey : key = e.1
    · subst hkey
      have hnot : (e.1, value) ∉ l := fun hmem => String.lt_irrefl e.1 (hlt (e.1, value) hmem)
      simp only [if_true, hnot, or_false, Option.some.injEq, Prod.ext_iff, true_and, eq_comm]
    · have hne : (key, value) ≠ e := fun heq => hkey (congrArg Prod.fst heq)
      rw [if_neg hkey, ih hl, or_iff_right hne]

/-- A catalog holds nothing but what its names find. -/
theorem ext_get? {c d : Catalog α} (h : ∀ name, c.get? name = d.get? name) : c = d := by
  have hmem : ∀ e, e ∈ c.entries ↔ e ∈ d.entries := fun e => by
    rw [← lookup_eq_some_iff_mem c.ascending, ← lookup_eq_some_iff_mem d.ascending]
    exact Eq.congr (h e.1) rfl
  have hnodup : ∀ c : Catalog α, c.entries.Nodup := fun c =>
    List.Pairwise.imp (fun {a b} (hlt : a.1 < b.1) (heq : a = b) => String.lt_irrefl b.1 (heq ▸ hlt)) c.ascending
  have hperm : c.entries.Perm d.entries := (List.perm_ext_iff_of_nodup (hnodup c) (hnodup d)).mpr hmem
  exact ext (hperm.eq_of_pairwise (fun _ _ _ _ hlt hlt' => absurd hlt' (not_lt_of_lt hlt)) c.ascending d.ascending)

theorem insert_comm {key key' : String} (hne : key ≠ key') (c : Catalog α) (a a' : α) :
    (c.insert key a).insert key' a' = (c.insert key' a').insert key a := by
  refine ext_get? fun name => ?_
  simp only [get?_insert]
  by_cases h : name = key
  · rw [if_pos h, if_pos h, if_neg (h ▸ hne)]
  · rw [if_neg h, if_neg h]

/-! ### Many entries -/

/-- The catalog with entries put in one by one. -/
def insertAll (c : Catalog α) (l : List (String × α)) : Catalog α := l.foldl (fun c e => c.insert e.1 e.2) c

/-- The entries have names of their own, which are free in the catalog. -/
structure Fresh (c : Catalog α) (l : List (String × α)) : Prop where
  distinct : (l.map (·.1)).Nodup
  free : ∀ e ∈ l, c.contains e.1 = false

section
variable {c : Catalog α} {l l' : List (String × α)}

theorem insertAll_append (c : Catalog α) (l l' : List (String × α)) :
    c.insertAll (l ++ l') = (c.insertAll l).insertAll l' := List.foldl_append

theorem contains_insertAll (c : Catalog α) (l : List (String × α)) (name : String) :
    (c.insertAll l).contains name = true ↔ name ∈ l.map (·.1) ∨ c.contains name = true := by
  induction l generalizing c with
  | nil => simp [insertAll]
  | cons e l ih =>
    rw [insertAll, List.foldl_cons]
    refine (ih (c.insert e.1 e.2)).trans ?_
    rw [contains_insert, List.map_cons, List.mem_cons, or_left_comm, or_assoc]

/-- Entries can be put in if some can and then the rest, with those in. -/
theorem fresh_append : Fresh c (l ++ l') ↔ Fresh c l ∧ Fresh (c.insertAll l) l' := by
  have hfree : ∀ name, (c.insertAll l).contains name = false ↔ name ∉ l.map (·.1) ∧ c.contains name = false :=
    fun name => by rw [← Bool.not_eq_true, contains_insertAll, not_or, Bool.not_eq_true]
  constructor
  · rintro ⟨hdistinct, hfree'⟩
    rw [List.map_append, List.nodup_append'] at hdistinct
    obtain ⟨hl, hl', hdisjoint⟩ := hdistinct
    refine ⟨⟨hl, fun e he => hfree' e (List.mem_append_left _ he)⟩, hl', fun e he => (hfree e.1).mpr
      ⟨fun hmem => ?_, ?_⟩⟩
    · exact hdisjoint hmem (List.mem_map_of_mem he)
    · exact hfree' e (List.mem_append_right _ he)
  · rintro ⟨⟨hl, hc⟩, hl', hc'⟩
    refine ⟨?_, fun e he => ?_⟩
    · rw [List.map_append, List.nodup_append']
      refine ⟨hl, hl', fun name hname hname' => ?_⟩
      obtain ⟨e, he, rfl⟩ := List.mem_map.mp hname'
      exact ((hfree e.1).mp (hc' e he)).1 hname
    · rcases List.mem_append.mp he with he | he
      · exact hc e he
      · exact ((hfree e.1).mp (hc' e he)).2

theorem Fresh.perm (h : Fresh c l) (hperm : l.Perm l') : Fresh c l' :=
  ⟨(hperm.map _).nodup_iff.mp h.distinct, fun e he => h.free e (hperm.mem_iff.mpr he)⟩

/-- Entries of distinct names give the same catalog in any order. -/
theorem insertAll_perm (hdistinct : (l.map (·.1)).Nodup) (hperm : l.Perm l') (c : Catalog α) :
    c.insertAll l = c.insertAll l' := by
  refine hperm.foldl_eq' (fun e he e' he' c => ?_) c
  by_cases hname : e.1 = e'.1
  · rw [List.inj_on_of_nodup_map hdistinct he he' hname]
  · exact insert_comm hname c e.2 e'.2

end

end Catalog
end Backend
