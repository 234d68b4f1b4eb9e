import Backend.Proofs.Decimal.Grammar
import Mathlib.Algebra.Order.Field.Rat
import Mathlib.Tactic.FieldSimp

/-! The number that a text says, and the number that is read. They are the same as long as the digits after the point
    are counted as many as they are. The count is kept in 32 bits: a text with 2³² digits or more after the point is
    read with a scale that has lost a multiple of 2³², passes for one with few digits, and becomes another number,
    unless it is zero. -/

namespace Backend
namespace Decimal

/-! ### What a text says -/

/-- The number that digits after a point stand for: each counts a tenth of the one before it. -/
def fractionValue : List Char → ℚ
  | [] => 0
  | c :: cs => (((c.toNat - '0'.toNat : Nat) : ℚ) + fractionValue cs) / 10

/-- The number that a text says, by its parts. -/
def denoted (negative : Bool) (whole : List Char) (after : Option (List Char)) : ℚ :=
  let size := (written false whole : ℚ) + fractionValue (after.getD [])
  if negative then -size else size

/-- The rational number that an exact number is. -/
def value (d : Decimal) : ℚ := (d.mantissa : ℚ) / 10 ^ d.scale

theorem fractionValue_eq (ds : List Char) : fractionValue ds = (Nat.ofDigitChars 10 ds 0 : ℚ) / 10 ^ ds.length := by
  induction ds with
  | nil => simp [fractionValue]
  | cons c ds ih =>
    have hcons : Nat.ofDigitChars 10 (c :: ds) 0 =
        10 ^ ds.length * (c.toNat - '0'.toNat) + Nat.ofDigitChars 10 ds 0 := by
      rw [Nat.ofDigitChars_cons, Nat.mul_zero, Nat.zero_add, Nat.ofDigitChars_eq_ofDigitChars_zero]
    rw [fractionValue, ih, hcons, List.length_cons, pow_succ]
    push_cast
    field_simp

/-- The digits before and after the point, taken together, write the number as many places further up as there are
    digits after the point. -/
theorem written_eq_denoted (negative : Bool) (whole : List Char) (after : Option (List Char)) :
    (written negative (whole ++ after.getD []) : ℚ) = denoted negative whole after * 10 ^ (after.getD []).length := by
  have hvalue : (Nat.ofDigitChars 10 (whole ++ after.getD []) 0 : ℚ) =
      ((Nat.ofDigitChars 10 whole 0 : ℚ) + fractionValue (after.getD [])) * 10 ^ (after.getD []).length := by
    rw [fractionValue_eq, Nat.ofDigitChars_append, Nat.ofDigitChars_eq_ofDigitChars_zero]
    push_cast
    field_simp
  unfold denoted
  rw [written_eq, written_eq]
  cases negative with
  | true =>
    simp only [if_true, Bool.false_eq_true, if_false]
    push_cast
    rw [hvalue, neg_mul]
  | false =>
    simp only [Bool.false_eq_true, if_false]
    exact_mod_cast hvalue

/-! ### What is read -/

section
variable {s : String} {d : Decimal} {negative : Bool} {whole : List Char} {after : Option (List Char)}

theorem value_eq_denoted (hvalue : d.mantissa = written negative (whole ++ after.getD []))
    (hscale : d.scale = (after.getD []).length) : d.value = denoted negative whole after := by
  rw [value, hvalue, hscale, written_eq_denoted]
  exact mul_div_cancel_right₀ _ (pow_ne_zero _ (by decide))

/-- With a smaller scale the number is another one, unless it is zero. -/
theorem value_eq_denoted_iff (hvalue : d.mantissa = written negative (whole ++ after.getD []))
    (hscale : d.scale < (after.getD []).length) : d.value = denoted negative whole after ↔ d.mantissa = 0 := by
  have hten : ∀ k : Nat, (10 : ℚ) ^ k ≠ 0 := fun k => pow_ne_zero k (by decide)
  have hmantissa : (d.mantissa : ℚ) = denoted negative whole after * 10 ^ (after.getD []).length := by
    rw [hvalue, written_eq_denoted]
  have hpow : (10 : ℚ) ^ d.scale ≠ 10 ^ (after.getD []).length :=
    (pow_lt_pow_right₀ (by decide) hscale).ne
  rw [value, div_eq_iff (hten _), hmantissa, ← Int.cast_eq_zero (α := ℚ), hmantissa, mul_eq_zero,
    or_iff_left (hten _)]
  constructor
  · intro h
    by_contra hne
    exact hpow (mul_left_cancel₀ hne h).symm
  · intro h
    rw [h, zero_mul, zero_mul]

/-- A text is read as the number that it says, with at most 28 digits after the point and as many as the scale, unless
    there are 2³² or more of them. Then there are more than the scale says, and the number is another one if it is
    not zero. -/
theorem read_as_said_unless_miscounted (h : parse s = .ok d) : ∃ negative whole after,
    IsSpelled s negative whole after ∧ d.scale = (after.getD []).length % 0x100000000 ∧ d.scale ≤ maxScale ∧
    ((after.getD []).length < 0x100000000 →
      (after.getD []).length ≤ maxScale ∧ d.scale = (after.getD []).length ∧ d.value = denoted negative whole after) ∧
    (0x100000000 ≤ (after.getD []).length →
      maxScale < (after.getD []).length ∧ d.scale < (after.getD []).length ∧
      (d.value = denoted negative whole after ↔ d.mantissa = 0)) := by
  have hmax := (Constructible.parsed h).bounds.2
  obtain ⟨negative, whole, after, hspelled, hscale, hvalue⟩ := parse_eq_ok h
  rw [← written_eq] at hvalue
  unfold digitCount at hscale
  have hlimit : maxScale = 28 := rfl
  refine ⟨negative, whole, after, hspelled, hscale, hmax, fun hlt => ?_, fun hge => ?_⟩
  · rw [Nat.mod_eq_of_lt hlt] at hscale
    exact ⟨hscale ▸ hmax, hscale, value_eq_denoted hvalue hscale⟩
  · have hless : d.scale < (after.getD []).length := by omega
    exact ⟨by omega, hless, value_eq_denoted_iff hvalue hless⟩

end

/-- The number nearest to zero of all that can be read is read as it is said. -/
theorem nearest_to_zero_read_as_said :
    parse "-0.0000000000000000000000000001" = .ok ⟨-1, 28⟩ ∧
    (⟨-1, 28⟩ : Decimal).value = denoted true ['0'] (some "0000000000000000000000000001".toList) := by
  have hparse : parse "-0.0000000000000000000000000001" = .ok ⟨-1, 28⟩ := by rfl
  have hparts : IsSpelled "-0.0000000000000000000000000001" true ['0'] (some "0000000000000000000000000001".toList) :=
    ⟨by decide, by decide, by decide, List.all_eq_true.mp (by decide)⟩
  obtain ⟨negative, whole, after, hspelled, -, -, hsaid, -⟩ := read_as_said_unless_miscounted hparse
  cases hspelled.split_eq.symm.trans hparts.split_eq
  exact ⟨hparse, (hsaid (by decide)).2.2⟩

/-! ### A text with too many digits -/

/-- The text of a one after a number of zeros behind the point. -/
def tiny (zeros : Nat) : String := String.ofList ('0' :: '.' :: (List.replicate zeros '0' ++ ['1']))

theorem isSpelled_tiny (zeros : Nat) :
    IsSpelled (tiny zeros) false ['0'] (some (List.replicate zeros '0' ++ ['1'])) where
  text := String.toList_ofList
  whole_ne := nofun
  after_ne := by simp
  digits := fun c hc => by
    simp only [Option.getD_some, List.mem_append, List.mem_singleton, List.mem_replicate] at hc
    rcases hc with rfl | ⟨-, rfl⟩ | rfl
    · rfl
    · rfl
    · rfl

/-- It is read as one place further up for each digit that is not counted. -/
theorem parse_tiny {zeros : Nat} (h : (zeros + 1) % 0x100000000 ≤ maxScale) :
    parse (tiny zeros) = .ok ⟨1, (zeros + 1) % 0x100000000⟩ := by
  have hcount : digitCount (List.replicate zeros '0' ++ ['1']) = (zeros + 1) % 0x100000000 := by
    rw [digitCount, List.length_append, List.length_replicate, List.length_singleton]
  have hwritten : written false (['0'] ++ (List.replicate zeros '0' ++ ['1'])) = 1 := by
    rw [written_eq, ← List.append_assoc, Nat.ofDigitChars_append]
    have hzeros : Nat.ofDigitChars 10 (['0'] ++ List.replicate zeros '0') 0 = 0 := by
      rw [List.singleton_append, ← List.replicate_succ, Nat.ofDigitChars_replicate_zero, Nat.mul_zero]
    rw [hzeros]
    rfl
  rw [(isSpelled_tiny zeros).parse_eq, Option.getD_some, hcount, hwritten, if_neg (Nat.not_lt.mpr h),
    if_pos (by decide)]

/-- The limit on the digits after the point can be passed: a one after 2³² - 1 zeros is read as the number one. -/
theorem not_every_text_read_as_said :
    ¬∀ (s : String) (d : Decimal), parse s = .ok d → ∃ negative whole after, IsSpelled s negative whole after ∧
      (after.getD []).length ≤ maxScale ∧ d.scale = (after.getD []).length ∧
      d.value = denoted negative whole after := by
  intro hall
  have hparse : parse (tiny 0xFFFFFFFF) = .ok ⟨1, (0xFFFFFFFF + 1) % 0x100000000⟩ := parse_tiny (by decide)
  obtain ⟨negative, whole, after, hspelled, hlength, -⟩ := hall _ _ hparse
  cases hspelled.split_eq.symm.trans (isSpelled_tiny 0xFFFFFFFF).split_eq
  rw [Option.getD_some, List.length_append, List.length_replicate] at hlength
  exact absurd hlength (by decide)

end Decimal
end Backend
