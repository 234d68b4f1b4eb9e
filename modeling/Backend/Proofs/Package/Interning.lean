import Backend.Proofs.Package.Partition
import Backend.Proofs.Package.Reordering
import Mathlib.Data.List.Basic
import Mathlib.Data.List.Infix

/-! Places in a pool. A pool only grows at its end, and only by what is not in it, so the place that a text once got is its
    place for good. Code can hold such places long before the object is built, whatever is asked of the builder in
    between. -/

namespace Backend

/-! ### Pools -/

namespace Pool
variable {α : Type} [DecidableEq α] {l pool : List α} {a : α}

theorem intern_of_mem (h : a ∈ pool) : intern pool a = (pool.idxOf a, pool) := by
  have hfound : pool.idxOf? a = some (pool.idxOf a) :=
    List.findIdx?_eq_some_iff_findIdx_eq.mpr ⟨List.idxOf_lt_length_of_mem h, rfl⟩
  rw [intern, hfound]

theorem intern_of_not_mem (h : a ∉ pool) : intern pool a = (pool.length, pool ++ [a]) := by
  have hnone : pool.idxOf? a = none := by simpa using h
  rw [intern, hnone]

theorem prefix_intern (pool : List α) (a : α) : pool <+: (intern pool a).2 := by
  by_cases h : a ∈ pool
  · rw [intern_of_mem h]
  · rw [intern_of_not_mem h]
    exact List.prefix_append pool [a]

theorem getElem?_intern (pool : List α) (a : α) : (intern pool a).2[(intern pool a).1]? = some a := by
  by_cases h : a ∈ pool
  · rw [intern_of_mem h]
    exact List.getElem?_idxOf h
  · rw [intern_of_not_mem h]
    exact List.getElem?_concat_length

/-- The pool after values were put in one by one. -/
def internAll (pool : List α) (l : List α) : List α := l.foldl (fun pool a => (intern pool a).2) pool

theorem prefix_internAll (pool l : List α) : pool <+: internAll pool l := by
  induction l generalizing pool with
  | nil => exact List.prefix_rfl
  | cons a l ih => exact (prefix_intern pool a).trans (ih _)

/-- The pool lists the distinct values of a list, in the order in which they first occur there. -/
structure FirstOccurrences (l pool : List α) : Prop where
  distinct : pool.Nodup
  mem : ∀ a, a ∈ pool ↔ a ∈ l
  order : ∀ a ∈ l, ∀ b ∈ l, pool.idxOf a < pool.idxOf b ↔ l.idxOf a < l.idxOf b

namespace FirstOccurrences

theorem intern_mem (h : FirstOccurrences l pool) (ha : a ∈ pool) : FirstOccurrences (l ++ [a]) pool := by
  have hl : a ∈ l := (h.mem a).mp ha
  have hold : ∀ {b}, b ∈ l ++ [a] → b ∈ l := by
    intro b hb
    rcases List.mem_append.mp hb with hb | hb
    · exact hb
    · exact List.mem_singleton.mp hb ▸ hl
  refine ⟨h.distinct, fun b => ⟨fun hb => List.mem_append_left _ ((h.mem b).mp hb), fun hb => (h.mem b).mpr (hold hb)⟩, ?_⟩
  intro b hb c hc
  rw [List.idxOf_append_of_mem (hold hb), List.idxOf_append_of_mem (hold hc)]
  exact h.order b (hold hb) c (hold hc)

/-- A new value goes behind all others, in the pool as in the list. -/
theorem intern_new (h : FirstOccurrences l pool) (ha : a ∉ pool) : FirstOccurrences (l ++ [a]) (pool ++ [a]) := by
  have hl : a ∉ l := fun hl => ha ((h.mem a).mpr hl)
  refine ⟨?_, by simp [h.mem], ?_⟩
  · rw [List.nodup_append]
    refine ⟨h.distinct, List.nodup_singleton a, ?_⟩
    intro b hb c hc hbc
    rw [hbc, List.mem_singleton.mp hc] at hb
    exact ha hb
  · have hlast : (pool ++ [a]).idxOf a = pool.length ∧ (l ++ [a]).idxOf a = l.length := by
      simp [List.idxOf_append_of_notMem ha, List.idxOf_append_of_notMem hl]
    have hfirst : ∀ {b}, b ∈ l → ((pool ++ [a]).idxOf b = pool.idxOf b ∧ pool.idxOf b < pool.length) ∧
        (l ++ [a]).idxOf b = l.idxOf b ∧ l.idxOf b < l.length := by
      intro b hb
      have hpool := (h.mem b).mpr hb
      exact ⟨⟨List.idxOf_append_of_mem hpool, List.idxOf_lt_length_of_mem hpool⟩,
        List.idxOf_append_of_mem hb, List.idxOf_lt_length_of_mem hb⟩
    intro b hb c hc
    rcases List.mem_append.mp hb with hb | hb <;> rcases List.mem_append.mp hc with hc | hc
    · rw [(hfirst hb).1.1, (hfirst hc).1.1, (hfirst hb).2.1, (hfirst hc).2.1]
      exact h.order b hb c hc
    · rw [List.mem_singleton.mp hc, hlast.1, hlast.2, (hfirst hb).1.1, (hfirst hb).2.1]
      exact iff_of_true (hfirst hb).1.2 (hfirst hb).2.2
    · rw [List.mem_singleton.mp hb, hlast.1, hlast.2, (hfirst hc).1.1, (hfirst hc).2.1]
      exact iff_of_false (Nat.lt_asymm (hfirst hc).1.2) (Nat.lt_asymm (hfirst hc).2.2)
    · rw [List.mem_singleton.mp hb, List.mem_singleton.mp hc]
      simp

theorem internAll (h : FirstOccurrences l pool) (added : List α) :
    FirstOccurrences (l ++ added) (Pool.internAll pool added) := by
  induction added generalizing l pool with
  | nil =>
    rw [List.append_nil]
    exact h
  | cons a added ih =>
    have hstep : FirstOccurrences (l ++ [a]) (intern pool a).2 := by
      by_cases ha : a ∈ pool
      · rw [intern_of_mem ha]
        exact h.intern_mem ha
      · rw [intern_of_not_mem ha]
        exact h.intern_new ha
    have hrest := ih hstep
    rw [List.append_assoc] at hrest
    exact hrest

theorem of_internAll (l : List α) : FirstOccurrences l (Pool.internAll [] l) := by
  have hempty : FirstOccurrences ([] : List α) [] := ⟨List.nodup_nil, fun _ => Iff.rfl, fun _ ha => absurd ha List.not_mem_nil⟩
  exact hempty.internAll l

theorem eq_nil_iff (h : FirstOccurrences l pool) : pool = [] ↔ l = [] := by
  simp only [List.eq_nil_iff_forall_not_mem, h.mem]

end FirstOccurrences
end Pool

/-! ### Runs -/

namespace Builder
open Pool

/-- Only requests for texts change the pools. -/
theorem pools_perform (b : Builder) (r : Request) :
    (b.perform r).2.strings = internAll b.strings r.texts ∧
      (b.perform r).2.trStrings = internAll b.trStrings r.translatables := by
  cases r with
  | constant name c =>
    rw [perform, addConstant, insertNew]
    cases b.constants.contains name <;> exact ⟨rfl, rfl⟩
  | type name r =>
    rw [perform, addType, insertNew]
    cases b.types.contains name <;> exact ⟨rfl, rfl⟩
  | function name signature code =>
    rw [perform, addFunction]
    cases b.hasFunction name <;> exact ⟨rfl, rfl⟩
  | string text => exact ⟨rfl, rfl⟩
  | trString t => exact ⟨rfl, rfl⟩
  | batch routines =>
    rw [perform]
    by_cases h : Acceptable b routines
    · obtain ⟨b', hproject, -, hsame⟩ := projectBatch_of_acceptable h
      rw [hproject]
      exact ⟨hsame.strings, hsame.trStrings⟩
    · obtain ⟨e, hproject, -⟩ := projectBatch_of_not_acceptable h
      rw [hproject]
      exact ⟨rfl, rfl⟩

theorem pools_foldl (b : Builder) (requests : List Request) :
    let b' := requests.foldl (fun b r => (b.perform r).2) b
    b'.strings = internAll b.strings (requests.flatMap Request.texts) ∧
      b'.trStrings = internAll b.trStrings (requests.flatMap Request.translatables) := by
  induction requests generalizing b with
  | nil => exact ⟨rfl, rfl⟩
  | cons r requests ih =>
    obtain ⟨hstrings, htrStrings⟩ := ih (b.perform r).2
    obtain ⟨hr, hr'⟩ := pools_perform b r
    rw [List.flatMap_cons, List.flatMap_cons, List.foldl_cons, internAll, internAll, List.foldl_append, List.foldl_append]
    exact ⟨hstrings.trans (by rw [hr]; rfl), htrStrings.trans (by rw [hr']; rfl)⟩

section
variable {requests : List Request} {k k' n i i' : Nat} {text text' : String}

theorem strings_filled (requests : List Request) :
    FirstOccurrences (requests.flatMap Request.texts) (filled requests).strings := by
  rw [filled, (pools_foldl empty requests).1]
  exact .of_internAll _

theorem trStrings_filled (requests : List Request) :
    FirstOccurrences (requests.flatMap Request.translatables) (filled requests).trStrings := by
  rw [filled, (pools_foldl empty requests).2]
  exact .of_internAll _

/-- At moment `k` of a run a literal text is added, and the place `i` is the answer. -/
structure AnsweredAt (requests : List Request) (k : Nat) (text : String) (i : Nat) : Prop where
  request : requests[k]? = some (.string text)
  answer : ((filled (requests.take k)).perform (.string text)).1 = .ok (some i)

/-- The literal texts of the object that is built at a moment of a run. -/
def stringsAt (requests : List Request) (n : Nat) : Option (List String) :=
  ((filled (requests.take n)).build .object).strings

theorem strings_kept (requests : List Request) (h : k ≤ n) :
    (filled (requests.take k)).strings <+: (filled (requests.take n)).strings := by
  have htake := List.take_append_drop k (requests.take n)
  rw [List.take_take, Nat.min_eq_left h] at htake
  have hstrings := (pools_foldl (filled (requests.take k)) ((requests.take n).drop k)).1
  rw [filled, ← List.foldl_append, htake] at hstrings
  rw [filled, filled, hstrings]
  exact prefix_internAll _ _

/-- An answer is the place of the text in the pool from then on. -/
theorem AnsweredAt.getElem? (h : AnsweredAt requests k text i) (hn : k < n) :
    (filled (requests.take n)).strings[i]? = some text := by
  obtain ⟨hrequest, hanswer⟩ := h
  obtain rfl : (intern (filled (requests.take k)).strings text).1 = i := by simpa [perform, addString] using hanswer
  have hnext : (filled (requests.take (k + 1))).strings = (intern (filled (requests.take k)).strings text).2 := by
    rw [List.take_add_one, hrequest, filled, List.foldl_append]
    rfl
  have hplaced := getElem?_intern (filled (requests.take k)).strings text
  rw [← hnext] at hplaced
  obtain ⟨hlt, -⟩ := List.getElem?_eq_some_iff.mp hplaced
  rw [← hplaced]
  exact (List.prefix_iff_getElem?.mp (strings_kept requests hn) _ hlt).trans (List.getElem?_eq_getElem hlt).symm

theorem stringsAt_of_getElem? (h : (filled (requests.take n)).strings[i]? = some text) :
    stringsAt requests n = some (filled (requests.take n)).strings := by
  have hne : (filled (requests.take n)).strings ≠ [] := by
    intro hnil
    rw [hnil] at h
    cases h
  simp [stringsAt, build, buildObject, presentPool, hne]

theorem presentPool_eq_none_iff {α : Type} {pool : List α} : presentPool pool = none ↔ pool = [] := by
  simp [presentPool]

end

/-- Places of literal texts are for good. Whatever is asked of a builder, the object has the distinct texts in the order
    in which they were first added, and likewise the texts to be translated. Each literal text that is added is answered
    by a place; in every object that is built later the text is found there, and there only; and two answers are equal
    just if the texts are. -/
theorem places_are_permanent (requests : List Request) :
    let object := (filled requests).build .object
    let texts := requests.flatMap Request.texts
    let translatables := requests.flatMap Request.translatables
    (FirstOccurrences texts (object.strings.getD []) ∧ (object.strings = none ↔ texts = [])) ∧
    (FirstOccurrences translatables (object.trStrings.getD []) ∧ (object.trStrings = none ↔ translatables = [])) ∧
    (∀ k text, requests[k]? = some (.string text) → ∃ i, AnsweredAt requests k text i) ∧
    (∀ k text i, AnsweredAt requests k text i → ∀ n, k < n →
      ∃ pool, stringsAt requests n = some pool ∧ ∀ j, pool[j]? = some text ↔ j = i) ∧
    ∀ k k' text text' i i', AnsweredAt requests k text i → AnsweredAt requests k' text' i' → (i = i' ↔ text = text') := by
  intro object texts translatables
  have hstrings := strings_filled requests
  have htrStrings := trStrings_filled requests
  have hobject : object.contents = filled requests := contents_object (filled requests)
  refine ⟨⟨?_, ?_⟩, ⟨?_, ?_⟩, ?_, ?_, ?_⟩
  · rw [← hobject] at hstrings
    exact hstrings
  · exact presentPool_eq_none_iff.trans hstrings.eq_nil_iff
  · rw [← hobject] at htrStrings
    exact htrStrings
  · exact presentPool_eq_none_iff.trans htrStrings.eq_nil_iff
  · intro k text hk
    exact ⟨_, hk, rfl⟩
  · intro k text i h n hn
    have hplace := h.getElem? hn
    obtain ⟨hlt, -⟩ := List.getElem?_eq_some_iff.mp hplace
    refine ⟨_, stringsAt_of_getElem? hplace, ?_⟩
    intro j
    rw [← hplace, eq_comm, eq_comm (a := j)]
    exact List.getElem?_inj hlt (strings_filled (requests.take n)).distinct
  · intro k k' text text' i i' h h'
    -- Both texts have their places in the pool at the later of the two moments.
    have hplace := h.getElem? (Nat.lt_succ_of_le (Nat.le_max_left k k'))
    have hplace' := h'.getElem? (Nat.lt_succ_of_le (Nat.le_max_right k k'))
    obtain ⟨hlt, -⟩ := List.getElem?_eq_some_iff.mp hplace
    rw [← List.getElem?_inj hlt (strings_filled (requests.take (max k k').succ)).distinct, hplace, hplace',
      Option.some.injEq]

example :
    let requests : List Request := [.string "key", .trString ⟨"door", "key"⟩, .string "ajar", .string "key"]
    stringsAt requests 1 = some ["key"] ∧ stringsAt requests 4 = some ["key", "ajar"] ∧
      ((filled (requests.take 3)).perform (.string "key")).1 = .ok (some 0) := by
  decide

end Builder
end Backend
