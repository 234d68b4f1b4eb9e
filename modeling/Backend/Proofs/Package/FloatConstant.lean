import Backend.Proofs.Package.Acceptance

/-! The exact half of a constant made from a binary number. It is the integer that the number is, or zero if the number
    is none, infinite, no integer, or an integer that 128 bits do not hold. One integer that they do hold is lost: the
    least one, since sizes are compared without regard to the sign. -/

namespace Backend
namespace Binary64

/-! ### The number of a pattern -/

/-- The rational number that a finite pattern stands for. -/
def value (x : Binary64) : ℚ := if x.negative then -x.size else x.size

/-- A natural number under a sign. -/
def signed (negative : Bool) (k : Nat) : Int := if negative then -(k : Int) else (k : Int)

section
variable {x : Binary64} {n : Int}

theorem size_eq_natCast_iff {k : Nat} : x.size = k ↔ x.ratio.1 = k * x.ratio.2 := by
  rw [← ratio_eq_size, div_eq_iff (Nat.cast_ne_zero.mpr x.ratio_pos.ne')]
  exact_mod_cast Iff.rfl

/-- A number is an integer just if its size is one. -/
theorem value_eq_intCast_iff : x.value = n ↔ ∃ k : Nat, x.size = k ∧ n = signed x.negative k := by
  have hnonneg := x.size_nonneg
  unfold value signed
  cases x.negative with
  | true =>
    simp only [if_true]
    constructor
    · intro h
      have hn : (0 : ℚ) ≤ (-n : Int) := by
        push_cast
        linarith
      obtain ⟨k, hk⟩ := Int.eq_ofNat_of_zero_le (Int.cast_nonneg_iff.mp hn)
      refine ⟨k, ?_, by omega⟩
      rw [← Int.cast_natCast, ← hk, Int.cast_neg, ← h, neg_neg]
    · rintro ⟨k, hk, rfl⟩
      rw [hk, Int.cast_neg, Int.cast_natCast]
  | false =>
    simp only [Bool.false_eq_true, if_false]
    constructor
    · intro h
      obtain ⟨k, rfl⟩ := Int.eq_ofNat_of_zero_le (Int.cast_nonneg_iff.mp (h ▸ hnonneg : (0 : ℚ) ≤ n))
      exact ⟨k, h, rfl⟩
    · rintro ⟨k, hk, rfl⟩
      exact hk

/-- A number is read as an integer just if it is finite and is that integer. -/
theorem toInt?_eq_some_iff : x.toInt? = some n ↔ x.isFinite = true ∧ x.value = n := by
  have hpos := x.ratio_pos
  simp only [value_eq_intCast_iff, size_eq_natCast_iff]
  unfold toInt?
  generalize x.ratio = r at hpos ⊢
  obtain ⟨num, den⟩ := r
  simp only [Bool.and_eq_true, decide_eq_true_eq] at hpos ⊢
  constructor
  · intro h
    split at h
    · rename_i hwhole
      cases h
      exact ⟨hwhole.1, num / den, (Nat.div_mul_cancel (Nat.dvd_of_mod_eq_zero hwhole.2)).symm, rfl⟩
    · cases h
  · rintro ⟨hfinite, k, rfl, rfl⟩
    rw [if_pos ⟨hfinite, Nat.mul_mod_left k den⟩, Nat.mul_div_cancel k hpos]
    rfl

end

/-! ### The pattern of the least word -/

/-- The pattern of -2¹²⁷. -/
def leastWord : Binary64 := ⟨0xC7E0000000000000⟩

theorem size_leastWord : leastWord.size = 2 ^ 127 := by
  have hsignificand : leastWord.significand = 2 ^ 52 := by decide
  have hexponent : leastWord.exponent = 75 := by decide
  rw [size, hsignificand, hexponent]
  norm_num

/-- The next pattern below is of a smaller size, and the next above of a larger one. -/
theorem size_beside_leastWord :
    (ofMagnitude true (leastWord.magnitude - 1)).size < 2 ^ 127 ∧
      2 ^ 127 < (ofMagnitude true (leastWord.magnitude + 1)).size := by
  have hbelow : (ofMagnitude true (leastWord.magnitude - 1)).significand = 2 ^ 53 - 1 ∧
      (ofMagnitude true (leastWord.magnitude - 1)).exponent = 74 := by decide
  have habove : (ofMagnitude true (leastWord.magnitude + 1)).significand = 2 ^ 52 + 1 ∧
      (ofMagnitude true (leastWord.magnitude + 1)).exponent = 75 := by decide
  rw [size, size, hbelow.1, hbelow.2, habove.1, habove.2]
  norm_num

theorem magnitude_of_size {x : Binary64} (h : x.size = 2 ^ 127) : x.magnitude = leastWord.magnitude := by
  obtain ⟨hbelow, habove⟩ := size_beside_leastWord
  have hmagnitude : leastWord.magnitude = 0x47E0000000000000 := by decide
  rcases Nat.lt_trichotomy x.magnitude leastWord.magnitude with hlt | heq | hgt
  · have hle : x.magnitude ≤ (ofMagnitude true (leastWord.magnitude - 1)).magnitude := by
      rw [magnitude_ofMagnitude true (by unfold signUnit; omega)]
      omega
    exact absurd (size_le hle) (not_le.mpr (h ▸ hbelow))
  · exact heq
  · have hle : (ofMagnitude true (leastWord.magnitude + 1)).magnitude ≤ x.magnitude := by
      rw [magnitude_ofMagnitude true (by unfold signUnit; omega)]
      omega
    exact absurd (size_le hle) (not_le.mpr (h ▸ habove))

/-- No other pattern stands for that integer. -/
theorem value_eq_least_iff {x : Binary64} :
    x.value = (-0x80000000000000000000000000000000 : Int) ↔ x = leastWord := by
  constructor
  · intro h
    obtain ⟨k, hk, hsigned⟩ := value_eq_intCast_iff.mp h
    unfold signed at hsigned
    split at hsigned
    · rename_i hnegative
      have hsize : x.size = 2 ^ 127 := by
        obtain rfl : k = 0x80000000000000000000000000000000 := by omega
        rw [hk]
        norm_num
      rw [x.eq_ofMagnitude, magnitude_of_size hsize, hnegative]
      rfl
    · omega
  · rintro rfl
    refine value_eq_intCast_iff.mpr ⟨0x80000000000000000000000000000000, ?_, by decide⟩
    rw [size_leastWord]
    norm_num

/-- A number is an integer of 128 bits. -/
structure IsWord (x : Binary64) (n : Int) : Prop where
  finite : x.isFinite = true
  value : x.value = n
  inRange : Decimal.InRange n

theorem isWord_leastWord : leastWord.IsWord (-0x80000000000000000000000000000000) :=
  ⟨by decide, value_eq_least_iff.mpr rfl, by decide⟩

end Binary64

namespace Constant

open Binary64

theorem exactValue_cases (x : Binary64) :
    (∃ n, x.toInt? = some n ∧ n.natAbs < 0x80000000000000000000000000000000 ∧ exactValue x = ⟨n, 0⟩) ∨
      ((∀ n, x.toInt? = some n → 0x80000000000000000000000000000000 ≤ n.natAbs) ∧ exactValue x = .zero) := by
  unfold exactValue
  cases x.toInt? with
  | none => exact Or.inr ⟨nofun, rfl⟩
  | some n =>
    by_cases h : n.natAbs < 0x80000000000000000000000000000000
    · exact Or.inl ⟨n, rfl, h, if_pos h⟩
    · refine Or.inr ⟨?_, if_neg h⟩
      rintro _ ⟨⟩
      exact Nat.le_of_not_lt h

section
variable {x : Binary64}

theorem scale_exactValue (x : Binary64) : (exactValue x).scale = 0 := by
  rcases exactValue_cases x with ⟨n, -, -, h⟩ | ⟨-, h⟩
  · rw [h]
  · rw [h]
    rfl

theorem exactValue_of_isWord {n : Int} (h : x.IsWord n) (hx : x ≠ leastWord) : exactValue x = ⟨n, 0⟩ := by
  have hint : x.toInt? = some n := toInt?_eq_some_iff.mpr ⟨h.finite, h.value⟩
  have hleast : n ≠ -0x80000000000000000000000000000000 := by
    rintro rfl
    exact hx (value_eq_least_iff.mp h.value)
  -- Without the least one the range is the same on both sides of zero.
  have hrange : n.natAbs < 0x80000000000000000000000000000000 := by
    have := h.inRange
    unfold Decimal.InRange at this
    omega
  rcases exactValue_cases x with ⟨m, hm, -, hexact⟩ | ⟨hlarge, -⟩
  · rw [hexact, Option.some.inj (hm.symm.trans hint)]
  · exact absurd hrange (Nat.not_lt.mpr (hlarge n hint))

theorem exactValue_of_not_isWord (h : ∀ n, ¬x.IsWord n) : exactValue x = .zero := by
  rcases exactValue_cases x with ⟨n, hn, hrange, -⟩ | ⟨-, hzero⟩
  · obtain ⟨hfinite, hvalue⟩ := toInt?_eq_some_iff.mp hn
    refine absurd ⟨hfinite, hvalue, ?_⟩ (h n)
    unfold Decimal.InRange
    omega
  · exact hzero

end

/-- The exact half of a constant made from a binary number has no fraction. If the number is an integer of 128 bits it
    is that integer, and otherwise zero, so it is never one that was rounded or held to the range. The one exception is
    the pattern of -2¹²⁷, an integer of 128 bits for which the exact half is zero. -/
theorem float_half_is_exact_or_zero (name typeName : String) (x : Binary64) :
    (ofFloat name typeName x).value.scale = 0 ∧
    (x ≠ leastWord → ∀ n, x.IsWord n → (ofFloat name typeName x).value.mantissa = n) ∧
    ((∀ n, ¬x.IsWord n) → (ofFloat name typeName x).value.mantissa = 0) ∧
    (x = leastWord →
      x.IsWord (-0x80000000000000000000000000000000) ∧ (ofFloat name typeName x).value.mantissa = 0) := by
  have hvalue : (ofFloat name typeName x).value = exactValue x := rfl
  rw [hvalue]
  refine ⟨scale_exactValue x, fun hx n h => ?_, fun h => ?_, ?_⟩
  · rw [exactValue_of_isWord h hx]
  · rw [exactValue_of_not_isWord h]
    rfl
  · rintro rfl
    exact ⟨isWord_leastWord, by decide⟩

/-- Not every integer of 128 bits is kept: the least one is not. -/
theorem not_every_word_is_kept :
    ¬∀ (name typeName : String) (x : Binary64),
      (ofFloat name typeName x).value.scale = 0 ∧
      (∀ n, x.IsWord n → (ofFloat name typeName x).value.mantissa = n) ∧
      ((∀ n, ¬x.IsWord n) → (ofFloat name typeName x).value.mantissa = 0) := by
  intro hall
  have hkept := (hall "F" "f64" leastWord).2.1 _ isWord_leastWord
  exact absurd hkept (by decide)

end Constant
end Backend
