import Backend.Json.Writer
import Backend.Proofs.Json.Numeral

/-! The lexemes of a written value. A scan of the text comes to the lexemes of the value, in either style. A word or a
    number at the end of a text is not found before something else follows, so two kinds of scans are told apart:
    those that are clear, and those that have found all but the end of the last lexeme. -/

namespace Backend
namespace Json

/-! ### The lexemes of a value -/

mutual

/-- The lexemes of a value. -/
def lexemes : Json → List Lexeme
  | .null => [.null]
  | .bool b => [.bool b]
  | .number lexeme => [.number lexeme]
  | .string s => [.string s]
  | .array [] => [.openArray, .closeArray]
  | .array (v :: vs) => .openArray :: (lexemes v ++ (itemLexemes vs ++ [.closeArray]))
  | .object [] => [.openObject, .closeObject]
  | .object ((name, v) :: ms) =>
    .openObject :: .string name :: .colon :: (lexemes v ++ (memberLexemes ms ++ [.closeObject]))

/-- The lexemes of further items. -/
def itemLexemes : List Json → List Lexeme
  | [] => []
  | v :: vs => .comma :: (lexemes v ++ itemLexemes vs)

/-- The lexemes of further members. -/
def memberLexemes : List (Option String × Json) → List Lexeme
  | [] => []
  | (name, v) :: ms => .comma :: .string name :: .colon :: (lexemes v ++ memberLexemes ms)

end

/-- All numbers in a value are written as numbers are. -/
inductive Sound : Json → Prop where
  | null : Sound .null
  | bool (b : Bool) : Sound (.bool b)
  | number {lexeme : List Char} (h : (numeral? lexeme).isSome) : Sound (.number lexeme)
  | string (s : Option String) : Sound (.string s)
  | array {items : List Json} (h : ∀ v ∈ items, Sound v) : Sound (.array items)
  | object {members : List (Option String × Json)} (h : ∀ m ∈ members, Sound m.2) : Sound (.object members)

/-! ### Scans -/

/-- The scan has found just these lexemes and is reading nothing. -/
def Clear (found : List Lexeme) (s : Scan) : Prop := s = ⟨found, .nothing⟩

/-- The scan has found just these lexemes, the last of which may go on. -/
inductive Found : List Lexeme → Scan → Prop where
  | nothing (found : List Lexeme) : Found found ⟨found, .nothing⟩
  | word {chars : List Char} {l : Lexeme} (found : List Lexeme) (h : word? chars.reverse = some l) :
    Found (l :: found) ⟨found, .word chars⟩
  | number {chars : List Char} {l : Lexeme} (found : List Lexeme) (h : number? chars.reverse = some l) :
    Found (l :: found) ⟨found, .number chars⟩

/-- The character goes on with no word and with no number. -/
def Parts (c : Char) : Prop := c.isLower = false ∧ isNumeric c = false

/-- What follows a word or a number is read as if nothing were being read. -/
theorem Found.step {found : List Lexeme} {s : Scan} {c : Char} (h : Found found s) (hc : Parts c) :
    s.step c = Scan.begin found c := by
  cases h with
  | nothing => rfl
  | word found h => simp [Scan.step, hc.1, h]
  | number found h => simp [Scan.step, hc.2, h]

theorem Found.finish {found : List Lexeme} {s : Scan} (h : Found found s) : s.finish = some found.reverse := by
  cases h with
  | nothing => rfl
  | word found h => simp [Scan.finish, h]
  | number found h => simp [Scan.finish, h]

/-- From every scan of the first kind, reading the text finds the lexemes and leads to a scan of the second. -/
def Scans (A : List Lexeme → Scan → Prop) (text : List Char) (ls : List Lexeme) (B : List Lexeme → Scan → Prop) :
    Prop :=
  ∀ found s, A found s → ∃ s', text.foldlM Scan.step s = some s' ∧ B (ls.reverse ++ found) s'

namespace Scans
variable {A B C : List Lexeme → Scan → Prop} {a b : List Char} {l r : List Lexeme}

theorem append (h₁ : Scans A a l B) (h₂ : Scans B b r C) : Scans A (a ++ b) (l ++ r) C := by
  intro found s hs
  obtain ⟨s', ha, hs'⟩ := h₁ found s hs
  obtain ⟨s'', hb, hs''⟩ := h₂ _ s' hs'
  refine ⟨s'', ?_, ?_⟩
  · rw [List.foldlM_append, ha]
    exact hb
  · rwa [List.reverse_append, List.append_assoc]

theorem nil : Scans A [] [] A := fun _ s hs => ⟨s, rfl, hs⟩

theorem toFound (h : Scans A a l Clear) : Scans A a l Found := by
  intro found s hs
  obtain ⟨s', ha, rfl⟩ := h found s hs
  exact ⟨_, ha, .nothing _⟩

/-- A text that starts with a character that parts may follow a word or a number. -/
theorem ofFound {c : Char} (hc : Parts c) (h : Scans Clear (c :: a) l B) : Scans Found (c :: a) l B := by
  intro found s hs
  obtain ⟨s', ha, hs'⟩ := h found ⟨found, .nothing⟩ rfl
  refine ⟨s', ?_, hs'⟩
  rw [List.foldlM_cons] at ha ⊢
  rw [hs.step hc]
  exact ha

end Scans

/-! ### Signs and gaps -/

theorem scans_punctuation {c : Char} {l : Lexeme} (h : ∀ found, Scan.begin found c = some ⟨l :: found, .nothing⟩) :
    Scans Clear [c] [l] Clear := by
  rintro found s rfl
  refine ⟨_, ?_, rfl⟩
  simp only [List.foldlM_cons, List.foldlM_nil]
  exact congrArg (· >>= _) (h found)

theorem scans_spaces (n : Nat) : Scans Clear (List.replicate n ' ') [] Clear := by
  induction n with
  | zero => exact Scans.nil
  | succ n ih =>
    rintro found s rfl
    exact ih found _ rfl

theorem scans_gap (style : Style) (level : Nat) : Scans Clear (style.gap level) [] Clear := by
  cases style with
  | compact => exact Scans.nil
  | pretty =>
    rintro found s rfl
    exact scans_spaces (2 * level) found _ rfl

theorem scans_colon (style : Style) : Scans Clear style.colon [.colon] Clear := by
  have h : Scans Clear [':'] [.colon] Clear := scans_punctuation fun _ => rfl
  cases style with
  | compact => exact h
  | pretty => exact h.append (scans_spaces 1)

theorem scans_comma (style : Style) (level : Nat) : Scans Found (',' :: style.gap level) [.comma] Clear :=
  have h : Scans Clear [','] [.comma] Clear := scans_punctuation fun _ => rfl
  .ofFound ⟨rfl, rfl⟩ (h.append (scans_gap style level))

theorem scans_open (style : Style) (level : Nat) {c : Char} {l : Lexeme}
    (h : ∀ found, Scan.begin found c = some ⟨l :: found, .nothing⟩) :
    Scans Clear (c :: style.gap level) [l] Clear :=
  (scans_punctuation h).append (scans_gap style level)

/-- A closing sign may follow its last item at once or after a gap. -/
theorem scans_close (style : Style) (level : Nat) {c : Char} {l : Lexeme} (hc : Parts c)
    (h : ∀ found, Scan.begin found c = some ⟨l :: found, .nothing⟩) :
    Scans Found (style.gap level ++ [c]) [l] Clear := by
  have hclose : Scans Clear (style.gap level ++ [c]) [l] Clear := (scans_gap style level).append (scans_punctuation h)
  cases style with
  | compact => exact .ofFound hc hclose
  | pretty => exact .ofFound ⟨rfl, rfl⟩ hclose

/-! ### Strings -/

theorem hexValue?_hexDigit (n : Nat) : hexValue? (hexDigit n) = some (n % 16) := by
  have h : ∀ d < 16, hexValue? (Nat.digitChar d) = some d := by decide
  exact h (n % 16) (Nat.mod_lt n (by decide))

/-- One character of a string, escaped or not, is read as itself. -/
theorem foldlM_escapeChar (found : List Lexeme) (chars : List Char) (c : Char) :
    (escapeChar c).foldlM Scan.step ⟨found, .string ⟨chars, true, none⟩⟩ =
      some ⟨found, .string ⟨c :: chars, true, none⟩⟩ := by
  unfold escapeChar
  split
  · rename_i h
    subst h
    rfl
  split
  · rename_i h
    subst h
    rfl
  split
  · rename_i h
    obtain rfl : c = '\x08' := Char.toNat_inj.mp h
    rfl
  split
  · rename_i h
    obtain rfl : c = '\x0c' := Char.toNat_inj.mp h
    rfl
  split
  · rename_i h
    subst h
    rfl
  split
  · rename_i h
    subst h
    rfl
  split
  · rename_i h
    subst h
    rfl
  split
  · -- Four hexadecimal digits; the unit they make is no half of a pair.
    rename_i h
    have hhigh : c.toNat / 16 % 16 = c.toNat / 16 := by omega
    have hunit : c.toNat / 16 * 16 + c.toNat % 16 = c.toNat := by omega
    have hfirst : PartialString.isFirstHalf c.toNat = false := by
      simp [PartialString.isFirstHalf]
      omega
    have hsecond : PartialString.isSecondHalf c.toNat = false := by
      simp [PartialString.isSecondHalf]
      omega
    have hzero : hexValue? '0' = some 0 := rfl
    simp [Scan.step, hzero, hexValue?_hexDigit, hhigh, hunit, PartialString.pushUnit, hfirst, hsecond,
      PartialString.push]
  · rename_i hquote hslash _ _ _ _ _ hlow
    simp [Scan.step, hquote, hslash, hlow, PartialString.push]

theorem foldlM_escaped (found : List Lexeme) (cs chars : List Char) :
    (cs.flatMap escapeChar).foldlM Scan.step ⟨found, .string ⟨chars, true, none⟩⟩ =
      some ⟨found, .string ⟨cs.reverse ++ chars, true, none⟩⟩ := by
  induction cs generalizing chars with
  | nil => rfl
  | cons c cs ih =>
    rw [List.flatMap_cons, List.foldlM_append, foldlM_escapeChar]
    show (cs.flatMap escapeChar).foldlM Scan.step _ = _
    rw [ih, List.reverse_cons, List.append_assoc]
    rfl

theorem scans_writeString (s : Option String) : Scans Clear (writeString s) [.string s] Clear := by
  rintro found _ rfl
  refine ⟨_, ?_, rfl⟩
  cases s with
  | none => rfl
  | some s =>
    show (s.toList.flatMap escapeChar ++ ['"']).foldlM Scan.step ⟨found, .string ⟨[], true, none⟩⟩ = _
    rw [List.foldlM_append, foldlM_escaped]
    simp [Scan.step, PartialString.text?]

/-! ### Numbers -/

theorem foldlM_numeric (found : List Lexeme) (cs chars : List Char) (h : ∀ c ∈ cs, isNumeric c = true) :
    cs.foldlM Scan.step ⟨found, .number chars⟩ = some ⟨found, .number (cs.reverse ++ chars)⟩ := by
  induction cs generalizing chars with
  | nil => rfl
  | cons c cs ih =>
    have hstep : Scan.step ⟨found, .number chars⟩ c = some ⟨found, .number (c :: chars)⟩ := by
      simp [Scan.step, h c List.mem_cons_self]
    rw [List.foldlM_cons, hstep]
    show cs.foldlM Scan.step _ = _
    rw [ih _ fun d hd => h d (List.mem_cons_of_mem c hd), List.reverse_cons, List.append_assoc]
    rfl

theorem begin_number (found : List Lexeme) {c : Char} (h : c.isDigit = true ∨ c = '-') :
    Scan.begin found c = some ⟨found, .number [c]⟩ := by
  rcases h with h | rfl
  · have hspace : isSpace c = false := by
      simp only [isSpace, Bool.or_eq_false_iff, decide_eq_false_iff_not]
      exact ⟨⟨⟨ne_of_isDigit h rfl, ne_of_isDigit h rfl⟩, ne_of_isDigit h rfl⟩, ne_of_isDigit h rfl⟩
    have hquote : c ≠ '"' := ne_of_isDigit h rfl
    simp [Scan.begin, hspace, hquote, h]
  · rfl

theorem scans_number {lexeme : List Char} (h : (numeral? lexeme).isSome) :
    Scans Clear lexeme [.number lexeme] Found := by
  rintro found _ rfl
  obtain ⟨n, hn⟩ := Option.isSome_iff_exists.mp h
  obtain ⟨⟨c, rest, rfl, hc⟩, hall⟩ := numeral?_isNumeric hn
  refine ⟨⟨found, .number (rest.reverse ++ [c])⟩, ?_, ?_⟩
  · rw [List.foldlM_cons]
    show (Scan.begin found c >>= _) = _
    rw [begin_number found hc]
    exact foldlM_numeric found rest [c] fun d hd => hall d (List.mem_cons_of_mem c hd)
  · refine .number found ?_
    simp [number?, hn]

/-! ### Values -/

/-- Reading the text of the value finds its lexemes, at any level. -/
def ScansWritten (style : Style) (v : Json) : Prop := ∀ level, Scans Clear (write style level v) v.lexemes Found

theorem scans_word (found : List Lexeme) {chars : List Char} {l : Lexeme}
    (h : chars.foldlM Scan.step ⟨found, .nothing⟩ = some ⟨found, .word chars.reverse⟩) (hl : word? chars = some l) :
    ∃ s, chars.foldlM Scan.step ⟨found, .nothing⟩ = some s ∧ Found ([l].reverse ++ found) s :=
  ⟨_, h, .word found (by rwa [List.reverse_reverse])⟩

theorem scans_items {style : Style} {items : List Json} (h : ∀ v ∈ items, ScansWritten style v) (level : Nat) :
    Scans Found (writeItems style level items) (itemLexemes items) Found := by
  induction items with
  | nil => exact Scans.nil
  | cons v vs ih =>
    have hv := h v List.mem_cons_self level
    have hvs := ih fun w hw => h w (List.mem_cons_of_mem v hw)
    have := (scans_comma style level).append (hv.append hvs)
    simpa [writeItems, itemLexemes] using this

theorem scans_members {style : Style} {members : List (Option String × Json)}
    (h : ∀ m ∈ members, ScansWritten style m.2) (level : Nat) :
    Scans Found (writeMembers style level members) (memberLexemes members) Found := by
  induction members with
  | nil => exact Scans.nil
  | cons m ms ih =>
    obtain ⟨name, v⟩ := m
    have hv := h (name, v) List.mem_cons_self level
    have hms := ih fun w hw => h w (List.mem_cons_of_mem (name, v) hw)
    have := (scans_comma style level).append
      ((scans_writeString name).append ((scans_colon style).append (hv.append hms)))
    simpa [writeMembers, memberLexemes] using this

theorem Sound.scans {v : Json} (h : v.Sound) (style : Style) : ScansWritten style v := by
  induction h with
  | null =>
    rintro level found _ rfl
    exact scans_word found rfl rfl
  | bool b =>
    rintro level found _ rfl
    cases b with
    | true => exact scans_word found rfl rfl
    | false => exact scans_word found rfl rfl
  | number h => exact fun _ => scans_number h
  | string s => exact fun _ => (scans_writeString s).toFound
  | @array items _ ih =>
    intro level
    cases items with
    | nil =>
      have hopen : Scans Clear ['['] [.openArray] Clear := scans_punctuation fun _ => rfl
      exact (hopen.append (scans_punctuation fun _ => rfl)).toFound
    | cons v vs =>
      have hopen : Scans Clear ('[' :: style.gap (level + 1)) [.openArray] Clear := scans_open style _ fun _ => rfl
      have hv := ih v List.mem_cons_self (level + 1)
      have hvs := scans_items (fun w hw => ih w (List.mem_cons_of_mem v hw)) (level + 1)
      have hclose : Scans Found (style.gap level ++ [']']) [.closeArray] Clear :=
        scans_close style level ⟨rfl, rfl⟩ fun _ => rfl
      have hall := hopen.append (hv.append (hvs.append hclose))
      simpa [write, lexemes] using hall.toFound
  | @object members _ ih =>
    intro level
    cases members with
    | nil =>
      have hopen : Scans Clear ['\x7b'] [.openObject] Clear := scans_punctuation fun _ => rfl
      exact (hopen.append (scans_punctuation fun _ => rfl)).toFound
    | cons m ms =>
      obtain ⟨name, v⟩ := m
      have hopen : Scans Clear ('\x7b' :: style.gap (level + 1)) [.openObject] Clear := scans_open style _ fun _ => rfl
      have hv := ih (name, v) List.mem_cons_self (level + 1)
      have hms := scans_members (fun w hw => ih w (List.mem_cons_of_mem (name, v) hw)) (level + 1)
      have hclose : Scans Found (style.gap level ++ ['\x7d']) [.closeObject] Clear :=
        scans_close style level ⟨rfl, rfl⟩ fun _ => rfl
      have hall := hopen.append ((scans_writeString name).append ((scans_colon style).append
        (hv.append (hms.append hclose))))
      simpa [write, lexemes] using hall.toFound

/-- The text of a value has the value's lexemes. -/
theorem lexemes?_write {v : Json} (h : v.Sound) (style : Style) (level : Nat) :
    lexemes? (write style level v) = some v.lexemes := by
  obtain ⟨s, hs, hfound⟩ := h.scans style level [] .start rfl
  rw [lexemes?, hs]
  show s.finish = _
  rw [hfound.finish, List.append_nil, List.reverse_reverse]

end Json
end Backend
