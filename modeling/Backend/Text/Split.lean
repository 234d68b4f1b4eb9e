/-! Texts taken apart at a separator and put together again. A separator stands between two pieces, so a text
    always has at least one piece, and one that ends with a separator has an empty last piece. Lines are the
    pieces between line feeds. -/

namespace Backend
namespace Text

/-- The pieces of a text between its separators. -/
def split (sep : Char) : List Char → List (List Char)
  | [] => [[]]
  | c :: cs =>
    if c = sep then [] :: split sep cs
    else match split sep cs with
      | [] => [[c]]
      | l :: ls => (c :: l) :: ls

/-- Pieces put together, with a separator between each two. -/
def join (sep : Char) : List (List Char) → List Char
  | [] => []
  | [l] => l
  | l :: ls => l ++ sep :: join sep ls

/-- The lines of a text. -/
def splitLines (cs : List Char) : List (List Char) := split '\n' cs

/-- The text of some lines. -/
def joinLines (ls : List (List Char)) : List Char := join '\n' ls

/-- The lines of a string. -/
def lines (s : String) : List String := (splitLines s.toList).map String.ofList

/-- A line of `n` spaces. -/
def blanks (n : Nat) : String := String.ofList (List.replicate n ' ')

/-- The widest padding there is: widths are kept in 16 bits. -/
def maxPadding : Nat := 0xFFFF

/-- The spaces in front of a padded line, if its padding is not too wide. -/
def padding? (width : Nat) : Option String := if width ≤ maxPadding then some (blanks width) else none

theorem padding?_of_le {width : Nat} (h : width ≤ maxPadding) : padding? width = some (blanks width) := if_pos h

theorem padding?_of_lt {width : Nat} (h : maxPadding < width) : padding? width = none := if_neg (Nat.not_le.mpr h)

theorem split_ne_nil (sep : Char) (cs : List Char) : split sep cs ≠ [] := by
  fun_cases split sep cs <;> simp_all

/-- There is one piece more than there are separators. -/
theorem length_split (sep : Char) (cs : List Char) : (split sep cs).length = cs.count sep + 1 := by
  induction cs with
  | nil => rfl
  | cons c cs ih =>
    rw [split]
    split
    · rename_i hc
      rw [List.length_cons, ih, hc, List.count_cons_self]
    · rename_i hc
      rw [List.count_cons_of_ne hc, ← ih]
      split
      · rename_i h
        exact absurd h (split_ne_nil sep cs)
      · rename_i l ls h
        rw [h, List.length_cons, List.length_cons]

theorem length_lines (s : String) : (lines s).length = s.toList.count '\n' + 1 := by
  rw [lines, List.length_map, splitLines, length_split]

theorem not_mem_of_mem_split {sep : Char} {cs l : List Char} (h : l ∈ split sep cs) : sep ∉ l := by
  induction cs generalizing l with
  | nil =>
    rw [List.mem_singleton.mp h]
    exact List.not_mem_nil
  | cons c cs ih =>
    rw [split] at h
    split at h
    · rcases List.mem_cons.mp h with rfl | h
      · exact List.not_mem_nil
      · exact ih h
    · rename_i hc
      split at h
      · rename_i hnil
        exact absurd hnil (split_ne_nil sep cs)
      · rename_i first rest hsplit
        rcases List.mem_cons.mp h with rfl | h
        · rw [List.mem_cons, not_or]
          exact ⟨Ne.symm hc, ih (hsplit ▸ List.mem_cons_self)⟩
        · exact ih (hsplit ▸ List.mem_cons_of_mem _ h)

theorem join_cons {sep : Char} {l : List Char} {ls : List (List Char)} (h : ls ≠ []) :
    join sep (l :: ls) = l ++ sep :: join sep ls := by
  cases ls with
  | nil => exact absurd rfl h
  | cons => rfl

/-- Nothing is lost between the pieces. -/
theorem join_split (sep : Char) (cs : List Char) : join sep (split sep cs) = cs := by
  induction cs with
  | nil => rfl
  | cons c cs ih =>
    rw [split]
    split
    · rename_i hc
      rw [join_cons (split_ne_nil sep cs), ih, hc]
      rfl
    · split
      · rename_i h
        exact absurd h (split_ne_nil sep cs)
      · rename_i l ls h
        rw [h] at ih
        cases ls with
        | nil => simpa [join] using ih
        | cons => simpa [join] using ih

theorem split_of_not_mem {sep : Char} {cs : List Char} (h : sep ∉ cs) : split sep cs = [cs] := by
  induction cs with
  | nil => rfl
  | cons c cs ih =>
    rw [List.mem_cons, not_or] at h
    rw [split, if_neg (Ne.symm h.1), ih h.2]

theorem split_append {sep : Char} {l : List Char} (h : sep ∉ l) (r : List Char) :
    split sep (l ++ sep :: r) = l :: split sep r := by
  induction l with
  | nil => rw [List.nil_append, split, if_pos rfl]
  | cons c l ih =>
    rw [List.mem_cons, not_or] at h
    rw [List.cons_append, split, if_neg (Ne.symm h.1), ih h.2]

/-- Pieces without a separator are found again. -/
theorem split_join {sep : Char} {ls : List (List Char)} (hne : ls ≠ []) (h : ∀ l ∈ ls, sep ∉ l) :
    split sep (join sep ls) = ls := by
  induction ls with
  | nil => exact absurd rfl hne
  | cons l ls ih =>
    obtain ⟨hl, hls⟩ := List.forall_mem_cons.mp h
    cases ls with
    | nil => exact split_of_not_mem hl
    | cons l' ls => rw [join_cons (List.cons_ne_nil l' ls), split_append hl, ih (List.cons_ne_nil l' ls) hls]

/-- Lines without a line break are found again. -/
theorem lines_joinLines {ls : List (List Char)} (hne : ls ≠ []) (h : ∀ l ∈ ls, '\n' ∉ l) :
    lines (String.ofList (joinLines ls)) = ls.map String.ofList := by
  rw [lines, String.toList_ofList, splitLines, joinLines, split_join hne h]

theorem joinLines_lines (s : String) : joinLines ((lines s).map String.toList) = s.toList := by
  rw [lines, List.map_map, joinLines, splitLines]
  simpa [Function.comp_def] using join_split '\n' s.toList

theorem lines_of_not_mem {s : String} (h : '\n' ∉ s.toList) : lines s = [s] := by
  rw [lines, splitLines, split_of_not_mem h, List.map_singleton, String.ofList_toList]

end Text
end Backend
