import Backend.Json.Lexeme
import Backend.Proofs.Text.Digits

/-! The texts of numbers. A text of the parts that a number has is taken as a number, and a text that is taken as
    a number has no character that cannot stand in one, so a scan does not stop inside it. -/

namespace Backend
namespace Json

/-! ### Digits -/

/-- The characters are digits, and there are some. -/
def AreDigits (cs : List Char) : Prop := cs ≠ [] ∧ ∀ c ∈ cs, c.isDigit = true

/-- The digits can stand before the point of a number: there is no needless zero. -/
def AreWhole (cs : List Char) : Prop := AreDigits cs ∧ (cs.head? = some '0' → cs = ['0'])

/-- The text does not go on with a digit. -/
def EndsDigits (rest : List Char) : Prop := ∀ c ∈ rest.head?, c.isDigit = false

theorem ne_of_isDigit {c d : Char} (hc : c.isDigit = true) (hd : d.isDigit = false) : c ≠ d := by
  rintro rfl
  rw [hc] at hd
  cases hd

theorem takeWhile_digits {ds rest : List Char} (h : ∀ c ∈ ds, c.isDigit = true) (hr : EndsDigits rest) :
    (ds ++ rest).takeWhile Char.isDigit = ds ∧ (ds ++ rest).dropWhile Char.isDigit = rest := by
  rw [List.takeWhile_append_of_pos h, List.dropWhile_append_of_pos h]
  cases rest with
  | nil => exact ⟨List.append_nil ds, rfl⟩
  | cons c rest =>
    have hc : ¬c.isDigit = true := by simp [hr c rfl]
    rw [List.takeWhile_cons_of_neg hc, List.dropWhile_cons_of_neg hc]
    exact ⟨List.append_nil ds, rfl⟩

theorem areDigits_toDigits (n : Nat) : AreDigits (Nat.toDigits 10 n) :=
  ⟨Nat.toDigits_ne_nil, fun _ hc => Nat.isDigit_of_mem_toDigits (by decide) (by decide) hc⟩

theorem areWhole_toDigits (n : Nat) : AreWhole (Nat.toDigits 10 n) := by
  refine ⟨areDigits_toDigits n, fun hhead => ?_⟩
  rcases Nat.eq_zero_or_pos n with rfl | hn
  · exact Nat.toDigits_zero 10
  · exact absurd hhead (head?_toDigits_ne hn)

/-! ### Numbers by their parts -/

/-- The text of a fraction: nothing, or a point and digits. -/
inductive FractionText : List Char → Option (List Char) → Prop where
  | absent : FractionText [] none
  | present {ds : List Char} (h : AreDigits ds) : FractionText ('.' :: ds) (some ds)

/-- The text of an exponent: nothing, or its mark, a sign if there is one, and digits. -/
inductive ExponentText : List Char → Option Int → Prop where
  | absent : ExponentText [] none
  | plain {ds : List Char} (h : AreDigits ds) : ExponentText ('e' :: ds) (some (Nat.ofDigitChars 10 ds 0))
  | plus {ds : List Char} (h : AreDigits ds) : ExponentText ('e' :: '+' :: ds) (some (Nat.ofDigitChars 10 ds 0))
  | minus {ds : List Char} (h : AreDigits ds) : ExponentText ('e' :: '-' :: ds) (some (-Nat.ofDigitChars 10 ds 0))

theorem exponentText_endsDigits {cs : List Char} {e : Option Int} (h : ExponentText cs e) : EndsDigits cs := by
  cases h <;> intro c hc <;> cases hc <;> rfl

theorem AreDigits.isEmpty_or_all {ds : List Char} (h : AreDigits ds) :
    (ds.isEmpty || !ds.all Char.isDigit) = false := by
  have hall : ds.all Char.isDigit = true := List.all_eq_true.mpr h.2
  have hne : ds.isEmpty = false := List.isEmpty_eq_false_iff.mpr h.1
  rw [hall, hne]
  rfl

theorem exponent?_plain {ds : List Char} (h : AreDigits ds) : exponent? ds = some (Nat.ofDigitChars 10 ds 0 : Int) := by
  have hds := h.isEmpty_or_all
  obtain ⟨c, ds, rfl⟩ := List.exists_cons_of_ne_nil h.1
  have hc := h.2 c List.mem_cons_self
  have hminus : c ≠ '-' := ne_of_isDigit hc rfl
  have hplus : c ≠ '+' := ne_of_isDigit hc rfl
  unfold exponent?
  split
  rename_i negative digits hsplit
  split at hsplit
  · simp_all
  · simp_all
  · cases hsplit
    rw [hds]
    rfl

theorem exponentPart?_eq_some (negative : Bool) (whole : List Char) (fraction : Option (List Char)) {cs : List Char}
    {e : Option Int} (h : ExponentText cs e) :
    exponentPart? negative whole fraction cs = some ⟨negative, whole, fraction, e⟩ := by
  cases h with
  | absent => rfl
  | plain h => simp [exponentPart?, exponent?_plain h]
  | plus h => simp [exponentPart?, exponent?, h.isEmpty_or_all]
  | minus h => simp [exponentPart?, exponent?, h.isEmpty_or_all]

theorem unsigned?_eq_some (negative : Bool) {whole fraction exponent : List Char} {ds : Option (List Char)}
    {e : Option Int} (hw : AreWhole whole) (hf : FractionText fraction ds) (he : ExponentText exponent e) :
    unsigned? negative (whole ++ (fraction ++ exponent)) = some ⟨negative, whole, ds, e⟩ := by
  have hends : EndsDigits (fraction ++ exponent) := by
    cases hf with
    | absent => exact exponentText_endsDigits he
    | present h =>
      intro c hc
      cases hc
      rfl
  obtain ⟨htake, hdrop⟩ := takeWhile_digits hw.1.2 hends
  have hlead : (whole.isEmpty || (whole.head? = some '0' && whole ≠ ['0'])) = false := by
    have hne : whole.isEmpty = false := List.isEmpty_eq_false_iff.mpr hw.1.1
    rw [hne, Bool.false_or]
    by_cases hzero : whole.head? = some '0'
    · simp [hw.2 hzero]
    · simp [hzero]
  unfold unsigned?
  rw [htake, hdrop]
  simp only [hlead]
  cases hf with
  | absent =>
    -- The text after the whole digits is looked at for a point first.
    cases he with
    | absent => rfl
    | plain h => exact exponentPart?_eq_some negative whole none (.plain h)
    | plus h => exact exponentPart?_eq_some negative whole none (.plus h)
    | minus h => exact exponentPart?_eq_some negative whole none (.minus h)
  | present h =>
    obtain ⟨htake, hdrop⟩ := takeWhile_digits h.2 (exponentText_endsDigits he)
    have hne : List.isEmpty _ = false := List.isEmpty_eq_false_iff.mpr h.1
    simp only [List.cons_append, htake, hdrop, hne]
    exact exponentPart?_eq_some negative whole _ he

/-- A text that is put together from the parts of a number is taken apart into them. -/
theorem numeral?_eq_some (negative : Bool) {whole fraction exponent : List Char} {ds : Option (List Char)}
    {e : Option Int} (hw : AreWhole whole) (hf : FractionText fraction ds) (he : ExponentText exponent e) :
    numeral? ((if negative then ['-'] else []) ++ (whole ++ (fraction ++ exponent))) =
      some ⟨negative, whole, ds, e⟩ := by
  cases negative with
  | true => exact unsigned?_eq_some true hw hf he
  | false =>
    rw [← unsigned?_eq_some false hw hf he]
    obtain ⟨c, cs, rfl⟩ := List.exists_cons_of_ne_nil hw.1.1
    have hc : c ≠ '-' := ne_of_isDigit (hw.1.2 c List.mem_cons_self) rfl
    show numeral? (c :: _) = _
    unfold numeral?
    split
    · rename_i heq
      cases heq
      exact absurd rfl hc
    · rfl

theorem numeral?_toDigits (n : Nat) : numeral? (Nat.toDigits 10 n) = some ⟨false, Nat.toDigits 10 n, none, none⟩ := by
  simpa using numeral?_eq_some false (areWhole_toDigits n) .absent .absent

/-! ### The characters of a number -/

theorem isNumeric_of_isDigit {c : Char} (h : c.isDigit = true) : isNumeric c = true := by
  simp [isNumeric, h]

theorem exponent?_isNumeric {cs : List Char} {e : Int} (h : exponent? cs = some e) :
    ∀ c ∈ cs, isNumeric c = true := by
  unfold exponent? at h
  split at h
  rename_i negative digits hsplit
  split at h
  · cases h
  · rename_i hdigits
    have hall : ∀ c ∈ digits, isNumeric c = true := fun c hc => by
      refine isNumeric_of_isDigit (List.all_eq_true.mp ?_ c hc)
      simp only [Bool.or_eq_true, Bool.not_eq_true', not_or, Bool.not_eq_false] at hdigits
      exact hdigits.2
    split at hsplit
    · cases hsplit
      exact List.forall_mem_cons.mpr ⟨rfl, hall⟩
    · cases hsplit
      exact List.forall_mem_cons.mpr ⟨rfl, hall⟩
    · cases hsplit
      exact hall

theorem exponentPart?_isNumeric {negative : Bool} {whole cs : List Char} {fraction : Option (List Char)}
    {n : Numeral} (h : exponentPart? negative whole fraction cs = some n) : ∀ c ∈ cs, isNumeric c = true := by
  cases cs with
  | nil => exact nofun
  | cons c rest =>
    simp only [exponentPart?] at h
    split at h
    · rename_i hmark
      obtain ⟨e, he, -⟩ := Option.map_eq_some_iff.mp h
      refine List.forall_mem_cons.mpr ⟨?_, exponent?_isNumeric he⟩
      rcases hmark with rfl | rfl <;> rfl
    · cases h

theorem takeWhile_isNumeric (cs : List Char) : ∀ c ∈ cs.takeWhile Char.isDigit, isNumeric c = true :=
  fun c hc => isNumeric_of_isDigit (List.all_eq_true.mp List.all_takeWhile c hc)

/-- A number without its sign starts with a digit and has only characters of numbers. -/
theorem unsigned?_isNumeric {negative : Bool} {cs : List Char} {n : Numeral} (h : unsigned? negative cs = some n) :
    (∃ c rest, cs = c :: rest ∧ c.isDigit = true) ∧ ∀ c ∈ cs, isNumeric c = true := by
  unfold unsigned? at h
  simp only at h
  split at h
  · cases h
  · rename_i hlead
    have hne : cs.takeWhile Char.isDigit ≠ [] := fun hnil => hlead (by simp [hnil])
    have hrest : ∀ c ∈ cs.dropWhile Char.isDigit, isNumeric c = true := by
      split at h
      · rename_i rest hdrop
        rw [hdrop]
        refine List.forall_mem_cons.mpr ⟨rfl, ?_⟩
        split at h
        · cases h
        · rw [← List.takeWhile_append_dropWhile (p := Char.isDigit) (l := rest)]
          exact List.forall_mem_append.mpr ⟨takeWhile_isNumeric rest, exponentPart?_isNumeric h⟩
      · exact exponentPart?_isNumeric h
    refine ⟨?_, ?_⟩
    · cases cs with
      | nil => exact absurd rfl hne
      | cons c rest =>
        refine ⟨c, rest, rfl, Decidable.byContradiction fun hc => ?_⟩
        exact hne (List.takeWhile_cons_of_neg hc)
    · rw [← List.takeWhile_append_dropWhile (p := Char.isDigit) (l := cs)]
      exact List.forall_mem_append.mpr ⟨takeWhile_isNumeric cs, hrest⟩

theorem numeral?_isNumeric {cs : List Char} {n : Numeral} (h : numeral? cs = some n) :
    (∃ c rest, cs = c :: rest ∧ (c.isDigit = true ∨ c = '-')) ∧ ∀ c ∈ cs, isNumeric c = true := by
  unfold numeral? at h
  split at h
  · exact ⟨⟨'-', _, rfl, Or.inr rfl⟩, List.forall_mem_cons.mpr ⟨rfl, (unsigned?_isNumeric h).2⟩⟩
  · obtain ⟨⟨c, rest, hcs, hc⟩, hall⟩ := unsigned?_isNumeric h
    exact ⟨⟨c, rest, hcs, Or.inl hc⟩, hall⟩

end Json
end Backend
