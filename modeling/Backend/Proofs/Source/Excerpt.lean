import Backend.Source.Excerpt
import Backend.Source.Token
import Mathlib.Tactic.SplitIfs

/-! When a diagnostic can be rendered. Its span has to be a piece of the file, as for a token. But that is not all: lines
    that are too long are cut around the span, and there is no way to cut them if the label ends well inside the
    indentation. Lines that fit are not cut, and behind an indentation of spaces no label ends inside of it. -/

namespace Backend

namespace Text

theorem cut_eq_some_iff {cs l r : List Char} {n : Nat} :
    cut cs n = some (l, r) ↔ cs = l ++ r ∧ byteLength l = n := by
  constructor
  · intro h
    exact ⟨(cut_append h).symm, byteLength_of_cut h⟩
  · rintro ⟨rfl, rfl⟩
    exact cut_byteLength l r

/-- An offset behind some spaces is as many columns in. -/
theorem le_breadth_before {n start : Nat} (h : n ≤ start) (rest : List Char) :
    let line := List.replicate n ' ' ++ rest
    n ≤ breadth 0 (line.take (column line start)) := by
  induction n generalizing start with
  | zero => exact Nat.zero_le _
  | succ n ih =>
    have hspace : (width? ' ').getD 0 = 1 := rfl
    have hsize : ' '.utf8Size = 1 := rfl
    have hrest := ih (Nat.le_sub_one_of_lt h)
    simp only [List.replicate_succ, List.cons_append, column, hsize, if_pos (show 1 ≤ start by omega),
      List.take_succ_cons, breadth, hspace] at hrest ⊢
    omega

end Text

/-! ### Pieces of a text -/

/-- The span has its ends between characters of the text. -/
def Span.IsPiece (span : Span) (contents : List Char) : Prop :=
  ∃ before marked after, contents = before ++ (marked ++ after) ∧ Text.byteLength before = span.start ∧
    Text.byteLength (before ++ marked) = span.stop

/-- What is made of a text cut at both ends of a span is there just if the span is a piece of it. -/
theorem Span.isSome_cuts_iff {α : Type} {span : Span} {contents : List Char}
    (f : List Char × List Char → List Char × List Char → α) :
    ((Text.cut contents span.start).bind fun p =>
      (Text.cut p.2 (span.stop - span.start)).bind fun q => some (f p q)).isSome ↔ span.IsPiece contents := by
  have hle := span.start_le_stop
  simp only [Option.isSome_iff_exists, Option.bind_eq_some_iff, Prod.exists, Text.cut_eq_some_iff, IsPiece,
    Text.byteLength_append]
  constructor
  · rintro ⟨_, before, _, ⟨hwhole, hstart⟩, marked, after, ⟨rfl, hsize⟩, -⟩
    exact ⟨before, marked, after, hwhole, hstart, by omega⟩
  · rintro ⟨before, marked, after, hwhole, hstart, hstop⟩
    exact ⟨_, before, marked ++ after, ⟨hwhole, hstart⟩, marked, after, ⟨rfl, by omega⟩, rfl⟩

theorem Token.isSome_ofSpan?_iff {file : SourceFile} {span : Span} :
    (ofSpan? file span).isSome ↔ span.IsPiece file.contents.toList := by
  rw [ofSpan?, Option.isSome_map, SourceFile.text?, Option.isSome_map]
  exact Span.isSome_cuts_iff fun _ q => q.1

/-! ### Windows -/

namespace Margin

theorem window?_eq_none_iff {width indent spanStart spanStop labelStop longest : Nat} :
    window? width indent spanStart spanStop labelStop longest = none ↔
      width + shortened indent < longest ∧ labelStop < indent := by
  unfold window?
  dsimp only
  split_ifs with hfits hlabel
  · exact iff_of_false (by simp) (by omega)
  · exact iff_of_true (by simp) (by omega)
  all_goals exact iff_of_false (by simp) (by omega)

theorem fit?_eq_none_iff {width : Nat} {e : Extent} : fit? width e = none ↔
    width + shortened (e.indent - room) < e.longest ∧ e.labelStop + 2 * room < e.indent := by
  rw [fit?, Option.map_eq_none_iff, window?_eq_none_iff, room]
  omega

end Margin

namespace Excerpt
variable {e : Excerpt}

theorem isSome_ofSpan?_iff {contents : List Char} {span : Span} :
    (ofSpan? contents span).isSome ↔ span.IsPiece contents := Span.isSome_cuts_iff _

/-- The columns for code beside the numbers of the lines. -/
def codeWidth (e : Excerpt) : Nat :=
  totalWidth - (3 + (Nat.toDigits 10 (e.firstNumber + e.lines.length)).length)

/-- The label ends inside the indentation of all lines, with room for dots on both sides, and there is a line that
    does not even fit without the indentation that is left out anyway. -/
structure Cramped (e : Excerpt) : Prop where
  labelInside : e.extent.labelStop + 2 * Margin.room < e.extent.indent
  long : ∃ line ∈ e.lines, e.codeWidth + Margin.shortened (e.extent.indent - Margin.room) < line.size

instance (e : Excerpt) : Decidable e.Cramped :=
  decidable_of_iff (e.extent.labelStop + 2 * Margin.room < e.extent.indent ∧
      ∃ line ∈ e.lines, e.codeWidth + Margin.shortened (e.extent.indent - Margin.room) < line.size)
    ⟨fun ⟨hlabel, hlong⟩ => ⟨hlabel, hlong⟩, fun ⟨hlabel, hlong⟩ => ⟨hlabel, hlong⟩⟩

/-- No line is longer than there are columns. -/
def IsShort (e : Excerpt) : Prop := ∀ line ∈ e.lines, line.size ≤ e.codeWidth

/-- The line in which the span starts is indented by spaces, and the span does not start before its code. -/
def StartsInCode (e : Excerpt) : Prop :=
  ∃ n c rest, e.firstLine.text = List.replicate n ' ' ++ c :: rest ∧ ¬Text.isBlank c ∧ n ≤ e.start

theorem lt_longest_iff {n : Nat} : n < e.extent.longest ↔ ∃ line ∈ e.lines, n < line.size := by
  constructor
  · intro h
    cases hmax : (e.lines.map (·.size)).max? with
    | none => simp [extent, hmax] at h
    | some longest =>
      obtain ⟨line, hline, rfl⟩ := List.mem_map.mp (List.max?_eq_some_iff.mp hmax).1
      exact ⟨line, hline, by simpa [extent, hmax] using h⟩
  · rintro ⟨line, hline, hlt⟩
    exact Nat.lt_of_lt_of_le hlt (List.le_max?_getD_of_mem (List.mem_map_of_mem hline))

theorem margin?_eq_none_iff : e.margin? = none ↔ e.Cramped := by
  rw [margin?, Margin.fit?_eq_none_iff, lt_longest_iff]
  exact ⟨fun ⟨hlong, hlabel⟩ => ⟨hlabel, hlong⟩, fun ⟨hlabel, hlong⟩ => ⟨hlong, hlabel⟩⟩

theorem isSome_rendered?_iff {level : Level} {path : String} : (e.rendered? level path).isSome ↔ ¬e.Cramped := by
  rw [rendered?, Option.isSome_map, Option.isSome_iff_ne_none, ← margin?_eq_none_iff]

theorem IsShort.not_cramped (h : e.IsShort) : ¬e.Cramped := by
  rintro ⟨-, line, hline, hlong⟩
  have := h line hline
  omega

theorem indent_le {line : SourceLine} {n : Nat} (hline : line ∈ e.lines) (hn : line.indent? = some n) :
    e.extent.indent ≤ n :=
  List.min?_getD_le_of_mem (List.mem_filterMap.mpr ⟨line, hline, hn⟩)

theorem firstLine_mem (h : e.firstLine.text ≠ []) : e.firstLine ∈ e.lines := by
  unfold firstLine at h ⊢
  cases hlines : e.lines with
  | nil => exact absurd rfl (hlines ▸ h)
  | cons line lines => exact List.mem_cons_self

theorem foldl_spaces (n k : Nat) :
    (List.replicate n ' ').foldl (fun n c => n + if c = '\t' then 4 else 1) k = k + n := by
  induction n generalizing k with
  | zero => rfl
  | succ n ih =>
    have hspace : (if ' ' = '\t' then 4 else 1) = 1 := rfl
    rw [List.replicate_succ, List.foldl_cons, ih, hspace]
    omega

theorem indent?_of_spaces {line : SourceLine} {n : Nat} {c : Char} {rest : List Char}
    (hline : line.text = List.replicate n ' ' ++ c :: rest) (hc : ¬Text.isBlank c) : line.indent? = some n := by
  have hspace : Text.isBlank ' ' = true := by decide
  have hcode : line.text.all Text.isBlank = false := by simp [hline, hc]
  have hspaces : line.text.takeWhile Text.isBlank = List.replicate n ' ' := by
    rw [hline, List.takeWhile_append_of_pos fun a ha => by rw [List.eq_of_mem_replicate ha, hspace],
      List.takeWhile_cons_of_neg hc, List.append_nil]
  simp [SourceLine.indent?, hcode, hspaces, foldl_spaces]

theorem StartsInCode.not_cramped (h : e.StartsInCode) : ¬e.Cramped := by
  obtain ⟨n, c, rest, htext, hc, hn⟩ := h
  rintro ⟨hlabel, -⟩
  have hmem : e.firstLine ∈ e.lines := firstLine_mem (by simp [htext])
  have hindent : e.extent.indent ≤ n := indent_le hmem (indent?_of_spaces htext hc)
  have hmark : n ≤ e.firstMark := by
    rw [firstMark, SourceLine.markColumn, SourceLine.before, htext]
    exact Text.le_breadth_before hn (c :: rest)
  have hstop : e.firstMark ≤ e.extent.labelStop := by
    simp only [extent]
    omega
  omega

end Excerpt

/-! ### Renderings -/

/-- The lines of a location are cramped. -/
def Location.Cramped (l : Location) : Prop := ∃ e ∈ Excerpt.ofSpan? l.file.contents.toList l.span, e.Cramped

instance (l : Location) : Decidable l.Cramped :=
  inferInstanceAs (Decidable (∃ e ∈ Excerpt.ofSpan? l.file.contents.toList l.span, e.Cramped))

namespace Diagnostic

theorem isSome_render?_at_iff {level : Level} {l : Location} {message : String} {colour : Bool} :
    (render? ⟨level, some l, message⟩ colour).isSome ↔ l.span.IsPiece l.file.contents.toList ∧ ¬l.Cramped := by
  rw [render?, Option.isSome_map, ← Excerpt.isSome_ofSpan?_iff]
  cases he : Excerpt.ofSpan? l.file.contents.toList l.span with
  | none => simp [renderedRows?, he]
  | some e =>
    have hrows : renderedRows? ⟨level, some l, message⟩ =
        (e.rendered? level l.file.path).map (titleRow ⟨level, some l, message⟩ :: ·) := by
      cases hbody : e.rendered? level l.file.path <;> simp [renderedRows?, he, hbody]
    simp [hrows, Excerpt.isSome_rendered?_iff, Location.Cramped, he]

theorem isSome_render?_iff {d : Diagnostic} {colour : Bool} : (d.render? colour).isSome ↔
    ∀ l, d.location = some l → l.span.IsPiece l.file.contents.toList ∧ ¬l.Cramped := by
  obtain ⟨level, _ | l, message⟩ := d
  · exact iff_of_true rfl (by simp)
  · simp [isSome_render?_at_iff]

end Diagnostic
end Backend
