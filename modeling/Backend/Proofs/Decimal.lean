import Backend.Decimal
import Backend.Proofs.Text.Digits
import Backend.Text.Bytes

/-! The written form of an exact number is read as that number: the digits around the point are the digits of the
    mantissa, and there are as many after the point as the scale says. And a text that is read as a number has the
    number's written form, up to zeros in front and a sign that means nothing. -/

namespace Backend
namespace Decimal

/-- The numbers that can come up: zero, integers, code points, and what is read from a text. -/
inductive Constructible : Decimal → Prop where
  | zero : Constructible .zero
  | ofInt {n : Int} {d : Decimal} (h : ofInt? n = some d) : Constructible d
  | ofChar (c : Char) : Constructible (.ofChar c)
  | parsed {s : String} {d : Decimal} (h : parse s = .ok d) : Constructible d

/-- Mantissa and scale of a number that can come up are in their bounds. -/
theorem Constructible.bounds {d : Decimal} (h : Constructible d) : InRange d.mantissa ∧ d.scale ≤ maxScale := by
  cases h with
  | zero => decide
  | ofInt h =>
    unfold ofInt? at h
    split at h
    · rename_i hn
      cases h
      exact ⟨hn, Nat.zero_le _⟩
    · cases h
  | ofChar c =>
    have hc : c.toNat < UInt32.size := c.val.toNat_lt
    refine ⟨?_, Nat.zero_le _⟩
    show InRange c.toNat
    unfold InRange
    unfold UInt32.size at hc
    omega
  | parsed h =>
    -- Three refusals come first, and the fourth is that of a mantissa out of range.
    simp only [parse] at h
    split at h
    · cases h
    · split at h
      · cases h
      · split at h
        · cases h
        · rename_i hscale
          generalize (if (split _).1 = true then _ else _ : Int) = mantissa at h
          split at h
          · rename_i hmantissa
            cases h
            exact ⟨hmantissa, Nat.le_of_not_lt hscale⟩
          · cases h

/-! ### The digits of a number -/

/-- The digits before the point. -/
def wholeDigits (d : Decimal) : List Char := d.digits.take (d.digits.length - d.scale)

/-- The digits after the point, if there is one. -/
def fractionDigits? (d : Decimal) : Option (List Char) :=
  if d.scale = 0 then none else some (d.digits.drop (d.digits.length - d.scale))

/-- Digits after a point, or nothing. -/
def pointed : Option (List Char) → List Char
  | none => []
  | some ds => '.' :: ds

theorem toList_text (d : Decimal) :
    d.text.toList =
      (if decide (d.mantissa < 0) then ['-'] else []) ++ (d.wholeDigits ++ pointed d.fractionDigits?) := by
  simp only [text, String.toList_ofList, List.append_assoc, wholeDigits, fractionDigits?, decide_eq_true_eq]
  by_cases h : d.scale = 0
  · rw [if_pos h, if_pos h]
    rfl
  · rw [if_neg h, if_neg h]
    rfl

theorem scale_lt_length (d : Decimal) : d.scale < d.digits.length := by
  rw [digits, List.length_leftpad]
  exact Nat.lt_of_lt_of_le (Nat.lt_succ_self _) (Nat.le_max_left _ _)

theorem digits_eq (d : Decimal) : d.wholeDigits ++ d.fractionDigits?.getD [] = d.digits := by
  unfold wholeDigits fractionDigits?
  split
  · rename_i h
    rw [h, Nat.sub_zero, List.take_length]
    exact List.append_nil _
  · exact List.take_append_drop _ _

theorem length_fractionDigits (d : Decimal) : (d.fractionDigits?.getD []).length = d.scale := by
  have hlt := d.scale_lt_length
  unfold fractionDigits?
  split
  · rename_i h
    rw [h]
    rfl
  · rw [Option.getD_some, List.length_drop]
    omega

theorem fractionDigits_ne_nil (d : Decimal) : d.fractionDigits? ≠ some [] := by
  intro hnil
  have hscale : d.scale = 0 := by
    rw [← length_fractionDigits, hnil]
    rfl
  rw [fractionDigits?, if_pos hscale] at hnil
  cases hnil

theorem wholeDigits_ne_nil (d : Decimal) : d.wholeDigits ≠ [] := by
  have hlt := d.scale_lt_length
  rw [← List.length_pos_iff, wholeDigits, List.length_take]
  omega

theorem isDigit_of_mem_digits {d : Decimal} {c : Char} (h : c ∈ d.digits) : c.isDigit = true := by
  rw [digits, List.leftpad, List.mem_append, List.mem_replicate] at h
  rcases h with ⟨-, rfl⟩ | h
  · rfl
  · exact Nat.isDigit_of_mem_toDigits (by decide) (by decide) h

/-- Zeros in front do not count. -/
theorem ofDigitChars_digits (d : Decimal) : Nat.ofDigitChars 10 d.digits 0 = d.mantissa.natAbs := by
  rw [digits, List.leftpad, Nat.ofDigitChars_append, Nat.ofDigitChars_replicate_zero, Nat.mul_zero,
    Nat.ofDigitChars_ten_toDigits]

/-! ### Reading it back -/

/-- A text is split where its sign and its point are. -/
theorem split_signed (negative : Bool) {whole : List Char} (after : Option (List Char)) (hne : whole ≠ [])
    (hdigits : ∀ c ∈ whole, c.isDigit = true) :
    split ((if negative then ['-'] else []) ++ (whole ++ pointed after)) = (negative, whole, after) := by
  have hwhole : ∀ c ∈ whole, decide (c ≠ '.') = true := fun c hc => by
    have hdigit := hdigits c hc
    refine decide_eq_true ?_
    rintro rfl
    cases hdigit
  have htake : (whole ++ pointed after).takeWhile (· ≠ '.') = whole := by
    rw [List.takeWhile_append_of_pos hwhole]
    cases after <;> exact List.append_nil whole
  have hdrop : (whole ++ pointed after).dropWhile (· ≠ '.') = pointed after := by
    rw [List.dropWhile_append_of_pos hwhole]
    cases after <;> rfl
  cases negative with
  | true =>
    simp only [if_true, List.cons_append, List.nil_append, Decimal.split, htake, hdrop]
    cases after <;> rfl
  | false =>
    unfold Decimal.split
    split
    rename_i negative body hbody
    split at hbody
    · -- A digit comes first, and no sign.
      rename_i heq
      obtain ⟨c, cs, rfl⟩ := List.exists_cons_of_ne_nil hne
      cases heq
      cases hdigits '-' List.mem_cons_self
    · cases hbody
      simp only [Bool.false_eq_true, if_false, List.nil_append, htake, hdrop]
      cases after <;> rfl

/-- A number in bounds is read back from its written form. -/
theorem parse_text {d : Decimal} (hm : InRange d.mantissa) (hs : d.scale ≤ maxScale) : parse d.text = .ok d := by
  have hsplit : split d.text.toList = (decide (d.mantissa < 0), d.wholeDigits, d.fractionDigits?) := by
    rw [toList_text]
    refine split_signed _ _ d.wholeDigits_ne_nil fun c hc => ?_
    exact isDigit_of_mem_digits (List.mem_of_mem_take hc)
  have hcount : digitCount (d.fractionDigits?.getD []) = d.scale := by
    rw [digitCount, length_fractionDigits]
    exact Nat.mod_eq_of_lt (Nat.lt_of_le_of_lt hs (by decide))
  have hall : d.digits.all Char.isDigit = true := List.all_eq_true.mpr fun c hc => isDigit_of_mem_digits hc
  have hwhole : d.wholeDigits.isEmpty = false := List.isEmpty_eq_false_iff.mpr d.wholeDigits_ne_nil
  have hvalue : (if decide (d.mantissa < 0) = true then -(d.mantissa.natAbs : Int) else (d.mantissa.natAbs : Int)) =
      d.mantissa := by
    by_cases hneg : d.mantissa < 0
    · rw [decide_eq_true hneg, if_pos rfl]
      omega
    · rw [decide_eq_false hneg, if_neg Bool.false_ne_true]
      omega
  unfold parse
  rw [hsplit]
  simp only [digits_eq, hall, hwhole, hcount, ofDigitChars_digits, hvalue]
  rw [if_neg (by decide), if_neg d.fractionDigits_ne_nil, if_neg (Nat.not_lt.mpr hs), if_pos hm]

/-- The numbers that can come up are those in bounds. -/
theorem constructible_iff {d : Decimal} : d.Constructible ↔ InRange d.mantissa ∧ d.scale ≤ maxScale :=
  ⟨Constructible.bounds, fun h => .parsed (parse_text h.1 h.2)⟩

/-! ### The digits that make a number -/

/-- The digits of a number are those that make its mantissa, if there is one more than the scale says or the first
    is not zero. -/
theorem digits_eq_cons {d : Decimal} {c : Char} {ds : List Char} (hd : ∀ x ∈ c :: ds, x.isDigit = true)
    (hvalue : Nat.ofDigitChars 10 (c :: ds) 0 = d.mantissa.natAbs)
    (hscale : d.scale = ds.length ∨ (d.scale ≤ ds.length ∧ c ≠ '0')) : d.digits = c :: ds := by
  have hlength : d.digits.length = (c :: ds).length := by
    have hlt : d.mantissa.natAbs < 10 ^ (ds.length + 1) := by
      have h := ofDigitChars_lt hd 0
      rwa [hvalue, Nat.zero_add, Nat.mul_one, List.length_cons] at h
    have hle := (Nat.length_toDigits_le_iff (by decide) (Nat.succ_pos _)).mpr hlt
    rw [digits, List.length_leftpad, List.length_cons]
    rcases hscale with hscale | ⟨hscale, hc⟩
    · omega
    · -- The first digit alone makes a number too large for one place less.
      have hge : 10 ^ ds.length ≤ d.mantissa.natAbs := by
        have hpos : 0 < c.toNat - '0'.toNat := by
          have hdigit := toNat_of_isDigit (hd c List.mem_cons_self)
          have hne : c.toNat ≠ '0'.toNat := fun h => hc (Char.toNat_inj.mp h)
          omega
        rw [← hvalue, Nat.ofDigitChars_cons, Nat.ofDigitChars_eq_ofDigitChars_zero]
        exact Nat.le_add_right_of_le (Nat.le_mul_of_pos_right _ (by omega))
      have hgt : ds.length < (Nat.toDigits 10 d.mantissa.natAbs).length := by
        rcases Nat.eq_zero_or_pos ds.length with hnil | hpos
        · rw [hnil]
          exact Nat.length_toDigits_pos
        · rw [← Nat.not_le, Nat.length_toDigits_le_iff (by decide) hpos, Nat.not_lt]
          exact hge
      omega
  have hsame : Nat.ofDigitChars 10 d.digits 0 = Nat.ofDigitChars 10 (c :: ds) 0 := by
    rw [ofDigitChars_digits, hvalue]
  exact (eq_of_ofDigitChars_eq (fun x hx => isDigit_of_mem_digits hx) hd hlength hsame).2

/-! ### The normal form -/

/-- A text by its parts: a minus sign or none, digits and, after a point if there is one, more digits. -/
structure IsSpelled (s : String) (negative : Bool) (whole : List Char) (after : Option (List Char)) : Prop where
  text : s.toList = (if negative then ['-'] else []) ++ (whole ++ pointed after)
  whole_ne : whole ≠ []
  after_ne : after ≠ some []
  digits : ∀ c ∈ whole ++ after.getD [], c.isDigit = true

/-- Digits without the zeros in front that say nothing. The last digit stays. -/
def withoutZeros : List Char → List Char
  | '0' :: c :: cs => withoutZeros (c :: cs)
  | cs => cs

theorem withoutZeros_sublist (cs : List Char) : (withoutZeros cs).Sublist cs := by
  fun_induction withoutZeros cs with
  | case1 c cs ih => exact ih.cons '0'
  | case2 cs => exact .refl cs

theorem ofDigitChars_withoutZeros (cs rest : List Char) :
    Nat.ofDigitChars 10 (withoutZeros cs ++ rest) 0 = Nat.ofDigitChars 10 (cs ++ rest) 0 := by
  fun_induction withoutZeros cs with
  | case1 c cs ih =>
    rw [ih]
    rfl
  | case2 cs => rfl

/-- What is left starts with a zero only if that is all. -/
theorem withoutZeros_eq_cons {cs : List Char} (h : cs ≠ []) :
    ∃ c ds, withoutZeros cs = c :: ds ∧ (c = '0' → ds = []) := by
  fun_induction withoutZeros cs with
  | case1 c cs ih => exact ih nofun
  | case2 cs hcs =>
    obtain ⟨c, ds, rfl⟩ := List.exists_cons_of_ne_nil h
    refine ⟨c, ds, rfl, fun hc => ?_⟩
    cases ds with
    | nil => rfl
    | cons d ds => exact (hcs d ds (hc ▸ rfl)).elim

/-- What is left from the first point on starts with the point, if it is anything. -/
theorem dropWhile_point (body : List Char) :
    body.dropWhile (· ≠ '.') = [] ∨ ∃ rest, body.dropWhile (· ≠ '.') = '.' :: rest := by
  cases hdrop : body.dropWhile (· ≠ '.') with
  | nil => exact Or.inl rfl
  | cons c rest =>
    have hc : decide (c ≠ '.') = false := by
      have h := List.head?_dropWhile_not (· ≠ '.') body
      rw [hdrop] at h
      exact h
    obtain rfl : c = '.' := by simpa using hc
    exact Or.inr ⟨rest, rfl⟩

/-- A text is made of the parts it is split into. -/
theorem split_eq (cs : List Char) :
    cs = (if (split cs).1 then ['-'] else []) ++ ((split cs).2.1 ++ pointed (split cs).2.2) := by
  unfold Decimal.split
  split
  rename_i negative body hsplit
  have hcs : cs = (if negative then ['-'] else []) ++ body := by
    split at hsplit
    · cases hsplit
      rfl
    · cases hsplit
      rfl
  have hbody := List.takeWhile_append_dropWhile (p := (· ≠ '.')) (l := body)
  rw [hcs]
  refine congrArg _ ?_
  rcases dropWhile_point body with h | ⟨rest, h⟩
  · rw [h] at hbody ⊢
    exact hbody.symm
  · rw [h] at hbody ⊢
    exact hbody.symm

/-- What a text that is read as a number consists of, and which number it is. -/
theorem parse_eq_ok {s : String} {d : Decimal} (h : parse s = .ok d) : ∃ negative whole after,
    IsSpelled s negative whole after ∧ d.scale = digitCount (after.getD []) ∧
    d.mantissa = if negative then -(Nat.ofDigitChars 10 (whole ++ after.getD []) 0 : Int)
      else (Nat.ofDigitChars 10 (whole ++ after.getD []) 0 : Int) := by
  have htext := split_eq s.toList
  unfold parse at h
  generalize split s.toList = parts at h htext
  obtain ⟨negative, whole, after⟩ := parts
  simp only at h htext
  split at h
  · cases h
  · rename_i hdigits
    split at h
    · cases h
    · rename_i hafter
      split at h
      · cases h
      · simp only [Bool.or_eq_true, List.isEmpty_iff, Bool.not_eq_true', not_or, Bool.not_eq_false,
          List.all_eq_true] at hdigits
        generalize hmantissa : (if negative = true then _ else _ : Int) = mantissa at h
        split at h
        · cases h
          exact ⟨negative, whole, after, ⟨htext, hdigits.1, hafter, hdigits.2⟩, rfl, hmantissa.symm⟩
        · cases h

section
variable {s : String} {d : Decimal} {negative : Bool} {whole : List Char} {after : Option (List Char)}

/-- The digits of what is read are those of the text, without the zeros that say nothing. -/
theorem IsSpelled.digits_eq (h : IsSpelled s negative whole after) (hscale : d.scale = (after.getD []).length)
    (hvalue : d.mantissa.natAbs = Nat.ofDigitChars 10 (whole ++ after.getD []) 0) :
    d.digits = withoutZeros whole ++ after.getD [] := by
  obtain ⟨c, cs, hcs, hlead⟩ := withoutZeros_eq_cons h.whole_ne
  have hdigits : ∀ x ∈ withoutZeros whole ++ after.getD [], x.isDigit = true := fun x hx =>
    h.digits x (((withoutZeros_sublist whole).append_right _).mem hx)
  rw [← ofDigitChars_withoutZeros] at hvalue
  rw [hcs, List.cons_append] at hdigits hvalue ⊢
  refine digits_eq_cons hdigits hvalue.symm ?_
  rw [List.length_append, hscale]
  by_cases hc : c = '0'
  · rw [hlead hc, List.length_nil, Nat.zero_add]
    exact Or.inl rfl
  · exact Or.inr ⟨Nat.le_add_left _ _, hc⟩

theorem wholeDigits_eq {ds fraction : List Char} (h : d.digits = ds ++ fraction) (hscale : d.scale = fraction.length) :
    d.wholeDigits = ds ∧ d.digits.drop (d.digits.length - d.scale) = fraction := by
  have hlength : d.digits.length - d.scale = ds.length := by
    rw [h, List.length_append, hscale, Nat.add_sub_cancel]
  rw [wholeDigits, hlength, h]
  exact ⟨List.take_left, List.drop_left⟩

/-- The sign stays if there is a digit other than zero. -/
theorem IsSpelled.negative_iff (h : IsSpelled s negative whole after)
    (hvalue : d.mantissa = if negative then -(Nat.ofDigitChars 10 (whole ++ after.getD []) 0 : Int)
      else (Nat.ofDigitChars 10 (whole ++ after.getD []) 0 : Int)) :
    decide (d.mantissa < 0) = (negative && (whole ++ after.getD []).any (· ≠ '0')) := by
  have hzero := ofDigitChars_eq_zero h.digits 0
  rw [Bool.eq_iff_iff, decide_eq_true_eq, Bool.and_eq_true, List.any_eq_true]
  have hany : (∃ c ∈ whole ++ after.getD [], decide (c ≠ '0') = true) ↔
      Nat.ofDigitChars 10 (whole ++ after.getD []) 0 ≠ 0 := by
    rw [Ne, hzero]
    simp
  rw [hany, hvalue]
  cases negative with
  | true =>
    simp only [if_true, true_and]
    omega
  | false =>
    simp only [Bool.false_eq_true, if_false, false_and, iff_false]
    omega

/-- The written form of what is read from a text is the text without zeros in front that say nothing, and without
    the sign of a zero. -/
theorem IsSpelled.text_eq (h : IsSpelled s negative whole after) (hscale : d.scale = (after.getD []).length)
    (hvalue : d.mantissa = if negative then -(Nat.ofDigitChars 10 (whole ++ after.getD []) 0 : Int)
      else (Nat.ofDigitChars 10 (whole ++ after.getD []) 0 : Int)) :
    d.text.toList = (if negative && (whole ++ after.getD []).any (· ≠ '0') then ['-'] else []) ++
      (withoutZeros whole ++ pointed after) := by
  have habs : d.mantissa.natAbs = Nat.ofDigitChars 10 (whole ++ after.getD []) 0 := by
    rw [hvalue]
    cases negative <;> simp
  obtain ⟨hwhole, hfraction⟩ := wholeDigits_eq (h.digits_eq hscale habs) hscale
  have hafter : d.fractionDigits? = after := by
    rw [fractionDigits?, hfraction, hscale]
    cases after with
    | none => rfl
    | some ds =>
      have hne : ds.length ≠ 0 := fun hnil => h.after_ne (by rw [List.eq_nil_of_length_eq_zero hnil])
      exact if_neg hne
  rw [toList_text, h.negative_iff hvalue, hwhole, hafter]

end

theorem length_le_byteLength (cs : List Char) : cs.length ≤ Text.byteLength cs := by
  induction cs with
  | nil => exact Nat.le_refl _
  | cons c cs ih =>
    have hc : 0 < c.utf8Size := c.utf8Size_pos
    rw [List.length_cons, Text.byteLength]
    omega

/-- In a text of less than 2³² bytes the digits after the point are counted as many as they are. -/
theorem IsSpelled.digitCount_eq {s : String} {negative : Bool} {whole : List Char} {after : Option (List Char)}
    (h : IsSpelled s negative whole after) (hs : Text.byteLength s.toList < 0x100000000) :
    digitCount (after.getD []) = (after.getD []).length := by
  refine Nat.mod_eq_of_lt (Nat.lt_of_le_of_lt ?_ hs)
  have hle := length_le_byteLength s.toList
  have hlength : (after.getD []).length ≤ s.toList.length := by
    rw [h.text, List.length_append, List.length_append]
    cases after with
    | none => exact Nat.zero_le _
    | some ds =>
      simp only [Option.getD_some, pointed, List.length_cons]
      omega
  exact Nat.le_trans hlength hle

/-- Reading undoes writing, and writing after reading gives the normal form of a text. The numbers that can come up are
    those with a mantissa of 128 bits and a scale of at most 28, and each is read back from its written form. A text of
    less than 2³² bytes that is read as a number is a sign, digits and maybe a point with further digits, and the
    number's written form has the same digits after the point and the same before it, less the zeros in front up to
    the last digit, and the sign just if some digit is not zero. So it is read and written once more without a change. -/
theorem text_is_normal_form :
    (∀ d : Decimal, d.Constructible ↔ InRange d.mantissa ∧ d.scale ≤ maxScale) ∧
    (∀ d : Decimal, InRange d.mantissa → d.scale ≤ maxScale → parse d.text = .ok d) ∧
    ∀ (s : String) (d : Decimal), Text.byteLength s.toList < 0x100000000 → parse s = .ok d →
      (∃ negative whole after, IsSpelled s negative whole after ∧
        d.text.toList = (if negative && (whole ++ after.getD []).any (· ≠ '0') then ['-'] else []) ++
          (withoutZeros whole ++ pointed after)) ∧
      (parse d.text).map text = .ok d.text := by
  refine ⟨fun d => constructible_iff, fun d => parse_text, fun s d hs h => ⟨?_, ?_⟩⟩
  · obtain ⟨negative, whole, after, hspelled, hscale, hvalue⟩ := parse_eq_ok h
    rw [hspelled.digitCount_eq hs] at hscale
    exact ⟨negative, whole, after, hspelled, hspelled.text_eq hscale hvalue⟩
  · obtain ⟨hm, hscale⟩ := (Constructible.parsed h).bounds
    rw [parse_text hm hscale]
    rfl

-- Zeros after the point stay, and so does one before it.
example : (parse "-007.50").map text = .ok "-7.50" ∧ (parse "-00.0").map text = .ok "0.0" := ⟨by rfl, by rfl⟩

end Decimal
end Backend
