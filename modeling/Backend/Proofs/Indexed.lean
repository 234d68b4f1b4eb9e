import Backend.Indexed

/-! Elements and their positions. A sequence is made by taking a whole list, by adding at the end and by replacing
    elements. What is added gets a position or is refused, and a replacement adds nothing. A list is taken whatever its
    length: one that is longer than there are positions has elements without one, and its elements cannot be enumerated
    any more. Such a list is the only way to come by elements without a position. -/

namespace Backend
namespace Indexed
variable {α : Type}

/-! ### Sequences in the making -/

/-- What is done to a sequence. -/
inductive Edit (α : Type) where
  /-- Takes a list in place of all elements. -/
  | take (l : List α)
  | push (a : α)
  /-- Replaces the element at a number, which has to be a position first. -/
  | assign (n : Nat) (a : α)

/-- The sequence after an edit. One that fails leaves it as it is. -/
def edited (v : Indexed α) : Edit α → Indexed α
  | .take l => ofList l
  | .push a => ((v.push a).toOption.map Prod.snd).getD v
  | .assign n a => ((position n).toOption.bind (v.set? · a)).getD v

/-- The sequence after edits, one after the other, without elements at first. -/
def made (edits : List (Edit α)) : Indexed α := edits.foldl edited empty

def Edit.taken? : Edit α → Option (List α)
  | .take l => some l
  | _ => none

/-- The list that was taken last; before any is taken there are no elements. -/
def lastTaken (edits : List (Edit α)) : List α := edits.foldl (fun l e => e.taken?.getD l) []

/-! ### Positions -/

/-- Each element has a position. -/
def Addressable (v : Indexed α) : Prop := ∀ n < v.size, position n = .ok n

theorem addressable_iff {v : Indexed α} : v.Addressable ↔ v.size ≤ positionLimit := by
  constructor
  · intro h
    refine Nat.not_lt.mp fun hlong => ?_
    have hlimit := h positionLimit hlong
    rw [position_of_le (Nat.le_refl _)] at hlimit
    cases hlimit
  · intro h n hn
    exact position_of_lt (Nat.lt_of_lt_of_le hn h)

theorem size_ofList (l : List α) : (ofList l).size = l.length := List.size_toArray

theorem size_of_set? {v w : Indexed α} {i : Nat} {a : α} (h : v.set? i a = some w) : w.size = v.size := by
  unfold set? at h
  split at h
  · cases h
    exact Array.size_setIfInBounds
  · cases h

/-- Adding at the end takes the last position at most. -/
theorem addressable_push (v : Indexed α) (a : α) : (v.edited (.push a)).Addressable ↔ v.Addressable := by
  rw [addressable_iff, addressable_iff, edited]
  cases hpush : v.push a with
  | error e => rfl
  | ok added =>
    obtain ⟨i, w⟩ := added
    obtain ⟨hroom, -, rfl⟩ := push_eq_ok.mp hpush
    have hsize : (⟨v.items.push a⟩ : Indexed α).size = v.size + 1 := Array.size_push a
    show (⟨v.items.push a⟩ : Indexed α).size ≤ positionLimit ↔ _
    rw [hsize]
    exact ⟨fun _ => Nat.le_of_lt hroom, fun _ => hroom⟩

theorem addressable_assign (v : Indexed α) (n : Nat) (a : α) :
    (v.edited (.assign n a)).Addressable ↔ v.Addressable := by
  rw [addressable_iff, addressable_iff, edited]
  cases hset : (position n).toOption.bind (v.set? · a) with
  | none => rfl
  | some w =>
    obtain ⟨i, -, hset⟩ := Option.bind_eq_some_iff.mp hset
    rw [Option.getD_some, size_of_set? hset]

/-- An edit keeps that each element has a position, unless it takes a list. -/
theorem addressable_edited {v : Indexed α} {l : List α} (h : v.Addressable ↔ l.length ≤ positionLimit) (e : Edit α) :
    (v.edited e).Addressable ↔ (e.taken?.getD l).length ≤ positionLimit := by
  cases e with
  | take l' => rw [addressable_iff, edited, size_ofList, Edit.taken?, Option.getD_some]
  | push a => exact (v.addressable_push a).trans h
  | assign n a => exact (v.addressable_assign n a).trans h

theorem addressable_made (edits : List (Edit α)) :
    (made edits).Addressable ↔ (lastTaken edits).length ≤ positionLimit := by
  -- The list taken last goes along with the sequence, whose size may differ from its length, but not across the limit.
  have hrun : ∀ (v : Indexed α) (l : List α), (v.Addressable ↔ l.length ≤ positionLimit) →
      ((edits.foldl edited v).Addressable ↔
        (edits.foldl (fun l e => e.taken?.getD l) l).length ≤ positionLimit) := by
    induction edits with
    | nil => exact fun _ _ h => h
    | cons e edits ih => exact fun v l h => ih _ _ (addressable_edited h e)
  exact hrun empty [] addressable_iff

/-! ### Enumeration -/

theorem enumerate_eq (v : Indexed α) :
    v.enumerate = v.items.toList.zipIdx.mapM fun p => (position p.2).map (·, p.1) := rfl

theorem mapM_position {l : List α} {k : Nat} (h : k + l.length ≤ positionLimit) :
    ((l.zipIdx k).mapM fun p => (position p.2).map (·, p.1)) = .ok ((l.zipIdx k).map Prod.swap) := by
  induction l generalizing k with
  | nil => rfl
  | cons a l ih =>
    rw [List.length_cons] at h
    have hrest := ih (k := k + 1) (by omega)
    rw [List.zipIdx_cons, List.mapM_cons, hrest, position_of_lt (by omega)]
    rfl

/-- The enumeration stops at the first element without a position. -/
theorem mapM_position_of_long {l : List α} {k : Nat} (hk : k ≤ positionLimit) (h : positionLimit < k + l.length) :
    ((l.zipIdx k).mapM fun p => (position p.2).map (·, p.1)) = .error ⟨⟩ := by
  induction l generalizing k with
  | nil => exact absurd h (Nat.not_lt.mpr hk)
  | cons a l ih =>
    rw [List.zipIdx_cons, List.mapM_cons]
    rcases Nat.lt_or_eq_of_le hk with hlt | rfl
    · rw [List.length_cons] at h
      have hrest := ih (k := k + 1) hlt (by omega)
      rw [hrest, position_of_lt hlt]
      rfl
    · -- Here the first element is the one without a position.
      rw [position_of_le (Nat.le_refl _)]
      rfl

/-- The pairs are the elements of a sequence with their positions, in order and each once. -/
structure Enumerates (v : Indexed α) (pairs : List (Nat × α)) : Prop where
  ascending : (pairs.map Prod.fst).Pairwise (· < ·)
  length_eq : pairs.length = v.size
  mem_iff : ∀ i a, (i, a) ∈ pairs ↔ v.get? i = some a

theorem enumerates_zipIdx (v : Indexed α) : v.Enumerates (v.items.toList.zipIdx.map Prod.swap) where
  ascending := by
    have hfst : (Prod.fst ∘ Prod.swap : α × Nat → Nat) = Prod.snd := rfl
    rw [List.map_map, hfst, List.zipIdx_map_snd]
    exact List.pairwise_lt_range' 1
  length_eq := by
    rw [List.length_map, List.length_zipIdx]
    rfl
  mem_iff := fun i a => by
    rw [get?, ← Array.getElem?_toList, ← List.mk_mem_zipIdx_iff_getElem?, List.mem_map]
    constructor
    · rintro ⟨⟨a', i'⟩, hmem, heq⟩
      cases heq
      exact hmem
    · exact fun hmem => ⟨(a, i), hmem, rfl⟩

theorem enumerate_of_addressable {v : Indexed α} (h : v.Addressable) :
    ∃ pairs, v.enumerate = .ok pairs ∧ v.Enumerates pairs := by
  have hsize : 0 + v.items.toList.length ≤ positionLimit := by
    rw [Nat.zero_add]
    exact addressable_iff.mp h
  exact ⟨_, (enumerate_eq v).trans (mapM_position hsize), v.enumerates_zipIdx⟩

theorem enumerate_of_not_addressable {v : Indexed α} (h : ¬v.Addressable) : v.enumerate = .error ⟨⟩ := by
  have hsize : positionLimit < 0 + v.items.toList.length := by
    rw [Nat.zero_add]
    exact Nat.not_le.mp (mt addressable_iff.mpr h)
  exact (enumerate_eq v).trans (mapM_position_of_long (Nat.zero_le _) hsize)

/-! ### Adding at the end -/

theorem contains_iff {v : Indexed α} {i : Nat} : v.contains i = true ↔ (v.get? i).isSome = true := by
  rw [contains, decide_eq_true_iff, ← Nat.not_le, Option.isSome_iff_ne_none]
  exact not_congr get?_eq_none_iff.symm

/-- One element more stands at the end, and the others where they stood. -/
structure Extends (v w : Indexed α) (a : α) : Prop where
  size_eq : w.size = v.size + 1
  last : w.get? v.size = some a
  earlier : ∀ i < v.size, w.get? i = v.get? i

theorem extends_pushed (v : Indexed α) (a : α) : v.Extends ⟨v.items.push a⟩ a where
  size_eq := Array.size_push a
  last := by rw [get?_pushed, if_pos rfl]
  earlier := fun i hi => by rw [get?_pushed, if_neg (Nat.ne_of_lt hi)]

theorem made_concat (edits : List (Edit α)) (e : Edit α) : made (edits ++ [e]) = (made edits).edited e := by
  rw [made, List.foldl_append]
  rfl

theorem push_of_room {v : Indexed α} (h : v.size < positionLimit) (a : α) :
    v.push a = .ok (v.size, v.edited (.push a)) ∧ v.Extends (v.edited (.push a)) a := by
  have hpush : v.push a = .ok (v.size, ⟨v.items.push a⟩) := push_eq_ok.mpr ⟨h, rfl, rfl⟩
  have hedited : v.edited (.push a) = ⟨v.items.push a⟩ := by
    rw [edited, hpush]
    rfl
  rw [hedited]
  exact ⟨hpush, v.extends_pushed a⟩

theorem push_of_full {v : Indexed α} (h : positionLimit ≤ v.size) (a : α) :
    v.push a = .error ⟨⟩ ∧ v.edited (.push a) = v := by
  have hpush : v.push a = .error ⟨⟩ := push_eq_error h
  refine ⟨hpush, ?_⟩
  rw [edited, hpush]
  rfl

/-- Whatever is done to a sequence, each element has a position just if the list that was taken last has no more elements
    than there are positions. Then the elements are enumerated with their positions, in order and each once; otherwise
    the enumeration fails. A position is contained just if an element is found there. While a position is left, an
    element is added at the end and found there, and the others are found where they were; without one it is refused. -/
theorem addressable_unless_taken_long (edits : List (Edit α)) :
    ((made edits).Addressable ↔ (lastTaken edits).length ≤ positionLimit) ∧
    ((made edits).Addressable → ∃ pairs, (made edits).enumerate = .ok pairs ∧ (made edits).Enumerates pairs) ∧
    (¬(made edits).Addressable → (made edits).enumerate = .error ⟨⟩) ∧
    (∀ i, (made edits).contains i = true ↔ ((made edits).get? i).isSome = true) ∧
    ∀ a, ((made edits).size < positionLimit →
        (made edits).push a = .ok ((made edits).size, made (edits ++ [.push a])) ∧
        (made edits).Extends (made (edits ++ [.push a])) a) ∧
      (positionLimit ≤ (made edits).size →
        (made edits).push a = .error ⟨⟩ ∧ made (edits ++ [.push a]) = made edits) := by
  refine ⟨addressable_made edits, enumerate_of_addressable, enumerate_of_not_addressable, fun _ => contains_iff,
    fun a => ?_⟩
  rw [made_concat]
  exact ⟨fun hroom => push_of_room hroom a, fun hfull => push_of_full hfull a⟩

/-- Takes 2³² - 1 elements, one for each position. -/
def full : List (Edit Unit) := [.take (List.replicate 0xFFFFFFFF ())]

theorem full_addressable : (made full).Addressable ∧
    (∃ pairs, (made full).enumerate = .ok pairs ∧ (made full).Enumerates pairs) ∧
    (made full).push () = .error ⟨⟩ ∧ made (full ++ [.push ()]) = made full := by
  obtain ⟨hiff, henumerate, -, -, hpush⟩ := addressable_unless_taken_long full
  have hlength : (List.replicate 0xFFFFFFFF ()).length = positionLimit := List.length_replicate
  have hsize : (made full).size = positionLimit := (size_ofList _).trans hlength
  have hall := hiff.mpr (Nat.le_of_eq hlength)
  exact ⟨hall, henumerate hall, (hpush ()).2 (Nat.le_of_eq hsize.symm)⟩

/-- A list with one element more is taken as well, and the last element has no position. -/
theorem not_every_sequence_enumerates : ¬∀ edits : List (Edit Unit), ∃ pairs, (made edits).enumerate = .ok pairs := by
  intro hall
  obtain ⟨pairs, hpairs⟩ := hall [.take (List.replicate 0x100000000 ())]
  have hlength : (List.replicate 0x100000000 ()).length = positionLimit + 1 := List.length_replicate
  have hlong : ¬(made [.take (List.replicate 0x100000000 ())]).Addressable :=
    mt (addressable_made _).mp (Nat.not_le.mpr (Nat.lt_of_lt_of_eq (Nat.lt_succ_self _) hlength.symm))
  rw [enumerate_of_not_addressable hlong] at hpairs
  cases hpairs

end Indexed
end Backend
