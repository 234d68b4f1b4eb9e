/-! A row of a rendering: cells that hold a character in one ink. Text is written at a column, over what
    stands there, and a row grows by blanks to reach the column. Inks become terminal codes or nothing. -/

namespace Backend

/-- What a cell is part of. -/
inductive Ink where
  | plain
  | strong
  | frame
  | mark
deriving Repr, DecidableEq

/-- A character in one ink. -/
structure Cell where
  char : Char
  ink : Ink
deriving Repr, DecidableEq

/-- The cells of a row, from the first column on. -/
abbrev Row := List Cell

namespace Row

/-- What stands in a column that nothing was written to. -/
def blank : Cell := ⟨' ', .plain⟩

/-- A text in one ink. -/
def inked (ink : Ink) (text : List Char) : Row := text.map fun c => ⟨c, ink⟩

/-- Writes a text at a column. The empty text changes nothing, not even the length. -/
def put (row : Row) (column : Nat) (ink : Ink) (text : List Char) : Row :=
  if text.isEmpty then row
  else (row.rightpad column blank).take column ++ inked ink text ++ row.drop (column + text.length)

@[simp] theorem put_nil (row : Row) (column : Nat) (ink : Ink) : row.put column ink [] = row := rfl

/-- After a text is written, its columns hold it and all others hold what they held. -/
theorem getElem?_put {row : Row} {column : Nat} {ink : Ink} {text : List Char} (h : text ≠ []) (i : Nat) :
    (row.put column ink text)[i]? =
      if i < column then some (row[i]?.getD blank)
      else if i < column + text.length then text[i - column]?.map fun c => ⟨c, ink⟩
      else row[i]? := by
  have hl : ((row.rightpad column blank).take column).length = column := by
    simp [List.rightpad]; omega
  have hi : (inked ink text).length = text.length := List.length_map _
  have hne : text.isEmpty = false := by simpa using h
  simp only [put, hne, Bool.false_eq_true, if_false, List.append_assoc, List.getElem?_append, hl, hi]
  split
  · next hlt =>
    rw [List.getElem?_take_of_lt hlt, List.rightpad, List.getElem?_append]
    split
    · next hr => simp [hr]
    · next hr =>
      have hnone : row[i]? = none := List.getElem?_eq_none (by omega)
      rw [hnone, List.getElem?_replicate, if_pos (by omega)]
      rfl
  · next hge =>
    by_cases hlt : i < column + text.length
    · rw [if_pos (by omega), if_pos hlt, inked, List.getElem?_map]
    · rw [if_neg (by omega), if_neg hlt, List.getElem?_drop]
      congr 1
      omega

/-- The characters of a row. -/
def text (row : Row) : List Char := row.map (·.char)

/-- The characters of a row between terminal codes: each stretch of cells of one code stands between the
    code and the code that ends it. A stretch without a code stands alone. -/
def coloured (code : Ink → String) (row : Row) : List Char :=
  (row.splitBy fun a b => code a.ink == code b.ink).flatMap fun stretch =>
    match stretch.head? with
    | none => []
    | some c =>
      if (code c.ink).isEmpty then text stretch
      else (code c.ink).toList ++ text stretch ++ "\x1b[0m".toList

end Row
end Backend
