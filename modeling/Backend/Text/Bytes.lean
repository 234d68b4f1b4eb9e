/-! Texts measured in bytes of their UTF-8 form. Offsets into a source file count bytes, so a text is cut at
    a byte offset, and only where a character starts. -/

namespace Backend
namespace Text

/-- The UTF-8 form of a text. -/
def bytes (cs : List Char) : List UInt8 := cs.flatMap String.utf8EncodeChar

/-- The number of bytes of a text. -/
def byteLength : List Char → Nat
  | [] => 0
  | c :: cs => c.utf8Size + byteLength cs

/-- The text before and the text after byte `n`; `none` if `n` lies past the end or inside a character. -/
def cut : List Char → Nat → Option (List Char × List Char)
  | cs, 0 => some ([], cs)
  | [], _ + 1 => none
  | c :: cs, n + 1 =>
    if c.utf8Size ≤ n + 1 then (cut cs (n + 1 - c.utf8Size)).map fun (l, r) => (c :: l, r) else none

/-- The text from byte `start` up to byte `stop`; `none` if one of them is no place to cut at. -/
def slice (cs : List Char) (start stop : Nat) : Option (List Char) := do
  let (_, rest) ← cut cs start
  let (mid, _) ← cut rest (stop - start)
  return mid

/-- The number of characters that end at or before byte `n`. An offset past the end counts as the end. -/
def column : List Char → Nat → Nat
  | [], _ => 0
  | c :: cs, n => if c.utf8Size ≤ n then column cs (n - c.utf8Size) + 1 else 0

/-! ### Sizes and cuts -/

theorem byteLength_append (l r : List Char) : byteLength (l ++ r) = byteLength l + byteLength r := by
  induction l with
  | nil => simp [byteLength]
  | cons c l ih => simp [byteLength, ih, Nat.add_assoc]

theorem bytes_append (l r : List Char) : bytes (l ++ r) = bytes l ++ bytes r := List.flatMap_append

/-- A cut loses nothing. -/
theorem cut_append {cs l r : List Char} {n : Nat} (h : cut cs n = some (l, r)) : l ++ r = cs := by
  fun_induction cut cs n generalizing l r with
  | case1 cs => simp_all
  | case2 => simp at h
  | case3 c cs n hc ih =>
    obtain ⟨⟨l', r'⟩, hcut, heq⟩ := Option.map_eq_some_iff.1 h
    cases heq
    simp [ih hcut]
  | case4 => simp at h

/-- A cut at byte `n` leaves `n` bytes before it. -/
theorem byteLength_of_cut {cs l r : List Char} {n : Nat} (h : cut cs n = some (l, r)) : byteLength l = n := by
  fun_induction cut cs n generalizing l r with
  | case1 cs =>
    cases h
    rfl
  | case2 => simp at h
  | case3 c cs n hc ih =>
    obtain ⟨⟨l', r'⟩, hcut, heq⟩ := Option.map_eq_some_iff.1 h
    cases heq
    rw [byteLength, ih hcut]
    exact Nat.add_sub_cancel' hc
  | case4 => simp at h

/-- A text can be cut after each of its beginnings. -/
theorem cut_byteLength (l r : List Char) : cut (l ++ r) (byteLength l) = some (l, r) := by
  induction l with
  | nil => cases r <;> rfl
  | cons c l ih =>
    have hpos := c.utf8Size_pos
    obtain ⟨n, hn⟩ : ∃ n, byteLength (c :: l) = n + 1 :=
      ⟨byteLength (c :: l) - 1, by rw [byteLength]; omega⟩
    rw [List.cons_append, hn, cut, if_pos (by rw [← hn, byteLength]; omega), ← hn, byteLength,
      Nat.add_sub_cancel_left, ih]
    rfl

end Text
end Backend
