/-! Sequences addressed by positions of 32 bits. The largest word is no position, so that a sequence never
    outgrows the count of its elements. Elements are only ever added at the end or replaced. -/

namespace Backend

/-- A number is too large to be a position. -/
structure PositionFault where
deriving Repr, DecidableEq

def PositionFault.message (_ : PositionFault) : String := "assertion failed: v < u32::MAX as usize"

/-- Positions are the numbers below this one. -/
def positionLimit : Nat := 0xFFFFFFFF

/-- A number as a position. -/
def position (n : Nat) : Except PositionFault Nat := if n < positionLimit then .ok n else .error ⟨⟩

theorem position_of_lt {n : Nat} (h : n < positionLimit) : position n = .ok n := if_pos h

theorem position_of_le {n : Nat} (h : positionLimit ≤ n) : position n = .error ⟨⟩ := if_neg (Nat.not_lt.mpr h)

/-- A sequence addressed by positions. -/
structure Indexed (α : Type) where
  items : Array α
deriving Repr, DecidableEq

namespace Indexed
variable {α : Type}

def empty : Indexed α := ⟨#[]⟩

/-- Takes the elements as they are, however many. -/
def ofList (l : List α) : Indexed α := ⟨l.toArray⟩

def size (v : Indexed α) : Nat := v.items.size

def get? (v : Indexed α) (i : Nat) : Option α := v.items[i]?

def contains (v : Indexed α) (i : Nat) : Bool := i < v.items.size

/-- Adds an element at the end and gives its position. -/
def push (v : Indexed α) (a : α) : Except PositionFault (Nat × Indexed α) := do
  let i ← position v.items.size
  return (i, ⟨v.items.push a⟩)

theorem push_eq_ok {v w : Indexed α} {a : α} {i : Nat} :
    v.push a = .ok (i, w) ↔ v.size < positionLimit ∧ i = v.size ∧ w = ⟨v.items.push a⟩ := by
  simp only [push, position, size, bind, Except.bind, pure, Except.pure]
  by_cases h : v.items.size < positionLimit
  · simp [h, eq_comm]
  · simp [h]

theorem push_eq_error {v : Indexed α} {a : α} (h : positionLimit ≤ v.size) : v.push a = .error ⟨⟩ := by
  have hposition : position v.items.size = .error ⟨⟩ := position_of_le h
  rw [push, hposition]
  rfl

/-- Replaces the element at a position. -/
def set? (v : Indexed α) (i : Nat) (a : α) : Option (Indexed α) :=
  if i < v.items.size then some ⟨v.items.setIfInBounds i a⟩ else none

/-- Changes the element at a position, if there is one. -/
def modify (v : Indexed α) (i : Nat) (f : α → α) : Indexed α := ⟨v.items.modify i f⟩

theorem get?_pushed (v : Indexed α) (a : α) (i : Nat) :
    (⟨v.items.push a⟩ : Indexed α).get? i = if i = v.size then some a else v.get? i :=
  Array.getElem?_push

theorem get?_modify (v : Indexed α) (i j : Nat) (f : α → α) :
    (v.modify i f).get? j = if i = j then (v.get? j).map f else v.get? j :=
  Array.getElem?_modify

theorem modify_modify (v : Indexed α) (i : Nat) (f g : α → α) :
    (v.modify i f).modify i g = v.modify i (fun a => g (f a)) := by
  unfold modify
  congr 1
  refine Array.ext_getElem? fun j => ?_
  rw [Array.getElem?_modify, Array.getElem?_modify, Array.getElem?_modify]
  split
  · rw [Option.map_map]
    rfl
  · rfl

theorem get?_eq_none_iff {v : Indexed α} {i : Nat} : v.get? i = none ↔ v.size ≤ i :=
  Array.getElem?_eq_none_iff

/-- All elements with their positions, in order. -/
def enumerate (v : Indexed α) : Except PositionFault (List (Nat × α)) :=
  v.items.toList.zipIdx.mapM fun (a, i) => do
    let i ← position i
    return (i, a)

end Indexed
end Backend
