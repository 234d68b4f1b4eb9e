import Backend.Number.Arithmetic
import Mathlib.Algebra.Order.Field.Power
import Mathlib.Algebra.Order.Field.Rat
import Mathlib.Data.Nat.Cast.Order.Field
import Mathlib.Tactic.Linarith
import Mathlib.Tactic.Positivity
import Mathlib.Tactic.Ring

/-! Rounding keeps the order of numbers. Of two fractions the smaller one is rounded to a magnitude that is not larger,
    and of two patterns the smaller magnitude stands for the smaller number, so products keep the order too. -/

namespace Backend

theorem cast_power (base n : Nat) : ((power base n : Nat) : ℚ) = (base : ℚ) ^ n := Nat.cast_pow base n

theorem cast_power_toNat (base : Nat) {e : Int} (he : 0 ≤ e) : ((power base e.toNat : Nat) : ℚ) = (base : ℚ) ^ e := by
  rw [cast_power, ← zpow_natCast, Int.toNat_of_nonneg he]

theorem cast_power_neg_toNat (base : Nat) {e : Int} (he : e ≤ 0) :
    ((power base (-e).toNat : Nat) : ℚ) = ((base : ℚ) ^ e)⁻¹ := by
  rw [cast_power_toNat base (by omega), zpow_neg]

theorem power_le_power {base m n : Nat} (hbase : 0 < base) (h : m ≤ n) : power base m ≤ power base n :=
  Nat.pow_le_pow_right hbase h

/-! ### Rounding to an integer -/

/-- An integer nearest to a number, and the even one of two. -/
structure IsNearest (x : ℚ) (k : Nat) : Prop where
  lower : (k : ℚ) - 1 / 2 ≤ x
  upper : x ≤ k + 1 / 2
  even_of_lower : x = (k : ℚ) - 1 / 2 → k % 2 = 0
  even_of_upper : x = (k : ℚ) + 1 / 2 → k % 2 = 0

theorem isNearest_cast (k : Nat) : IsNearest k k where
  lower := by linarith
  upper := by linarith
  even_of_lower := fun h => by linarith
  even_of_upper := fun h => by linarith

theorem isNearest_roundDiv (n : Nat) {d : Nat} (hd : 0 < d) : IsNearest ((n : ℚ) / d) (roundDiv n d) := by
  -- The number is the quotient and a part of one.
  have hd' : (0 : ℚ) < d := Nat.cast_pos.mpr hd
  have hx : (n : ℚ) / d = (n / d : Nat) + ((n % d : Nat) : ℚ) / d := by
    rw [div_eq_iff hd'.ne', add_mul, div_mul_cancel₀ _ hd'.ne']
    exact_mod_cast (Nat.div_add_mod' n d).symm
  have hnonneg : (0 : ℚ) ≤ ((n % d : Nat) : ℚ) / d := by positivity
  have hlt : ((n % d : Nat) : ℚ) / d < 1 := (div_lt_one hd').mpr (Nat.cast_lt.mpr (Nat.mod_lt n hd))
  have hless : 2 * (n % d) < d ↔ ((n % d : Nat) : ℚ) / d < 1 / 2 := by
    rw [div_lt_div_iff₀ hd' two_pos, one_mul, mul_comm, ← Nat.cast_lt (α := ℚ), Nat.cast_mul, Nat.cast_two]
  have hhalf : 2 * (n % d) = d ↔ ((n % d : Nat) : ℚ) / d = 1 / 2 := by
    rw [div_eq_div_iff hd'.ne' two_ne_zero, one_mul, mul_comm, ← Nat.cast_inj (R := ℚ), Nat.cast_mul, Nat.cast_two]
  unfold roundDiv
  simp only [hless, hhalf]
  rw [hx]
  generalize ((n % d : Nat) : ℚ) / d = part at *
  generalize n / d = q
  split
  · rename_i h
    have hle : part ≤ 1 / 2 := by
      rcases h with h | ⟨h, -⟩
      · exact h.le
      · exact h.le
    refine ⟨by linarith, by linarith, fun heq => by linarith, fun heq => ?_⟩
    rcases h with h | ⟨-, h⟩
    · linarith
    · exact h
  · rename_i h
    rw [not_or, not_and, not_lt] at h
    refine ⟨?_, ?_, fun heq => ?_, fun heq => ?_⟩ <;> push_cast at *
    · linarith [h.1]
    · linarith
    · have := h.2 (by linarith)
      omega
    · linarith

theorem IsNearest.le {x y : ℚ} {k m : Nat} (hk : IsNearest x k) (hm : IsNearest y m) (h : x ≤ y) : k ≤ m := by
  by_contra hlt
  have hcast : (m : ℚ) + 1 ≤ k := by exact_mod_cast Nat.lt_of_not_le hlt
  have hlower := hk.lower
  have hupper := hm.upper
  -- Then both are a half away from one and the same number, and both are even.
  have hkeven := hk.even_of_lower (by linarith)
  have hmeven := hm.even_of_upper (by linarith)
  have hsucc : k = m + 1 := by
    have : (k : ℚ) = (m + 1 : Nat) := by
      push_cast
      linarith
    exact_mod_cast this
  omega

namespace Binary64

/-! ### The unit of a number -/

section
variable {num den : Nat}

theorem le_div_iff_scaled (hd : 0 < den) (e : Int) :
    (2 : ℚ) ^ e ≤ (num : ℚ) / den ↔
      if 0 ≤ e then den * power 2 e.toNat ≤ num else den ≤ num * power 2 (-e).toNat := by
  have hd' : (0 : ℚ) < den := Nat.cast_pos.mpr hd
  split
  · rename_i he
    obtain ⟨n, rfl⟩ := Int.eq_ofNat_of_zero_le he
    rw [le_div_iff₀ hd', mul_comm, ← Nat.cast_le (α := ℚ), Nat.cast_mul, cast_power]
    simp
  · rename_i he
    obtain ⟨n, rfl⟩ : ∃ n : Nat, e = -n := ⟨(-e).toNat, by omega⟩
    rw [le_div_iff₀ hd', zpow_neg, zpow_natCast, inv_mul_le_iff₀ (by positivity), mul_comm, ← Nat.cast_le (α := ℚ),
      Nat.cast_mul, cast_power]
    simp

/-- A number that is not zero lies between neighbouring powers of two. -/
theorem cast_log2 {n : Nat} (hn : 0 < n) : (2 : ℚ) ^ (n.log2 : Int) ≤ n ∧ (n : ℚ) < 2 ^ (n.log2 + 1 : Int) := by
  refine ⟨?_, ?_⟩
  · exact_mod_cast Nat.log2_self_le hn.ne'
  · exact_mod_cast Nat.lt_log2_self

theorem floorLog2_spec (hn : 0 < num) (hd : 0 < den) :
    (2 : ℚ) ^ floorLog2 num den ≤ (num : ℚ) / den ∧ (num : ℚ) / den < 2 ^ (floorLog2 num den + 1) := by
  have hd' : (0 : ℚ) < den := Nat.cast_pos.mpr hd
  obtain ⟨hnum_le, hnum_lt⟩ := cast_log2 hn
  obtain ⟨hden_le, hden_lt⟩ := cast_log2 hd
  -- The two logarithms leave the place of two powers open, and a comparison decides between them.
  have hbelow : (2 : ℚ) ^ ((num.log2 : Int) - den.log2 - 1) ≤ (num : ℚ) / den := by
    rw [le_div_iff₀ hd']
    calc (2 : ℚ) ^ ((num.log2 : Int) - den.log2 - 1) * den
        ≤ 2 ^ ((num.log2 : Int) - den.log2 - 1) * 2 ^ (den.log2 + 1 : Int) := by gcongr
      _ = 2 ^ (num.log2 : Int) := by rw [← zpow_add₀ two_ne_zero]; congr 1; omega
      _ ≤ num := hnum_le
  have habove : (num : ℚ) / den < 2 ^ ((num.log2 : Int) - den.log2 + 1) := by
    rw [div_lt_iff₀ hd']
    calc (num : ℚ) < 2 ^ (num.log2 + 1 : Int) := hnum_lt
      _ = 2 ^ ((num.log2 : Int) - den.log2 + 1) * 2 ^ (den.log2 : Int) := by
        rw [← zpow_add₀ two_ne_zero]; congr 1; omega
      _ ≤ 2 ^ ((num.log2 : Int) - den.log2 + 1) * den := by gcongr
  unfold floorLog2
  simp only [← le_div_iff_scaled hd]
  split
  · rename_i h
    exact ⟨h, habove⟩
  · rename_i h
    rw [sub_add_cancel]
    exact ⟨hbelow, not_le.mp h⟩

theorem floorLog2_le {num' den' : Nat} (hn : 0 < num) (hd : 0 < den) (hn' : 0 < num') (hd' : 0 < den')
    (h : (num : ℚ) / den ≤ num' / den') : floorLog2 num den ≤ floorLog2 num' den' := by
  have hlt := ((floorLog2_spec hn hd).1.trans h).trans_lt (floorLog2_spec hn' hd').2
  exact Int.lt_add_one_iff.mp ((zpow_lt_zpow_iff_right₀ one_lt_two).mp hlt)

end

/-! ### Rounding to a pattern -/

section
variable {num den : Nat}

/-- The count of units nearest to a number. -/
def unitCount (num den : Nat) (e : Int) : Nat :=
  if 0 ≤ e then roundDiv num (den * power 2 e.toNat) else roundDiv (num * power 2 (-e).toNat) den

theorem isNearest_unitCount (num : Nat) (hd : 0 < den) (e : Int) :
    IsNearest ((num : ℚ) / den / 2 ^ e) (unitCount num den e) := by
  unfold unitCount
  split
  · rename_i he
    have h := isNearest_roundDiv num (Nat.mul_pos hd (power_pos two_pos e.toNat))
    rwa [Nat.cast_mul, cast_power_toNat 2 he, ← div_div] at h
  · rename_i he
    have h := isNearest_roundDiv (num * power 2 (-e).toNat) hd
    rwa [Nat.cast_mul, cast_power_neg_toNat 2 (by omega), ← div_eq_mul_inv, div_right_comm] at h

theorem nearestMagnitude_eq (hn : 0 < num) : nearestMagnitude num den =
    min ((unitExponent num den + 1074).toNat * fractionUnit + unitCount num den (unitExponent num den))
      infinityMagnitude :=
  if_neg hn.ne'

theorem unitCount_le (hn : 0 < num) (hd : 0 < den) :
    unitCount num den (unitExponent num den) ≤ 2 * fractionUnit := by
  have hlt := (floorLog2_spec hn hd).2
  refine (isNearest_unitCount num hd _).le (isNearest_cast _) ?_
  rw [div_le_iff₀ (by positivity)]
  have hexponent : floorLog2 num den + 1 ≤ 53 + unitExponent num den := by
    have := le_max_left (floorLog2 num den - 52) (-1074)
    unfold unitExponent
    omega
  calc (num : ℚ) / den ≤ 2 ^ (floorLog2 num den + 1) := hlt.le
    _ ≤ 2 ^ (53 + unitExponent num den) := zpow_le_zpow_right₀ one_le_two hexponent
    _ = ((2 * fractionUnit : Nat) : ℚ) * 2 ^ unitExponent num den := by
      rw [zpow_add₀ two_ne_zero]
      norm_num [fractionUnit]

/-- Units that are not the least there are come in at least 2⁵². -/
theorem le_unitCount (hn : 0 < num) (hd : 0 < den) (h : -1074 < unitExponent num den) :
    fractionUnit ≤ unitCount num den (unitExponent num den) := by
  have hle := (floorLog2_spec hn hd).1
  refine (isNearest_cast _).le (isNearest_unitCount num hd _) ?_
  rw [le_div_iff₀ (by positivity)]
  have hexponent : floorLog2 num den = 52 + unitExponent num den := by
    unfold unitExponent at h ⊢
    omega
  calc (fractionUnit : ℚ) * 2 ^ unitExponent num den = 2 ^ (52 + unitExponent num den) := by
        rw [zpow_add₀ two_ne_zero]
        norm_num [fractionUnit]
    _ = 2 ^ floorLog2 num den := by rw [hexponent]
    _ ≤ (num : ℚ) / den := hle

/-- Rounding keeps the order. -/
theorem nearestMagnitude_le {num' den' : Nat} (hd : 0 < den) (hd' : 0 < den')
    (h : (num : ℚ) / den ≤ num' / den') : nearestMagnitude num den ≤ nearestMagnitude num' den' := by
  rcases Nat.eq_zero_or_pos num with rfl | hn
  · exact Nat.zero_le _
  · have hpos : (0 : ℚ) < num / den := div_pos (Nat.cast_pos.mpr hn) (Nat.cast_pos.mpr hd)
    have hn' : 0 < num' := by
      rcases Nat.eq_zero_or_pos num' with rfl | hn'
      · rw [Nat.cast_zero, zero_div] at h
        exact absurd h (not_le.mpr hpos)
      · exact hn'
    have hexponent : unitExponent num den ≤ unitExponent num' den' := by
      have := floorLog2_le hn hd hn' hd' h
      unfold unitExponent
      omega
    have hleast : -1074 ≤ unitExponent num den := le_max_right _ _
    rw [nearestMagnitude_eq hn, nearestMagnitude_eq hn']
    refine min_le_min_right _ ?_
    rcases hexponent.eq_or_lt with heq | hlt
    · rw [← heq]
      have hcount := (isNearest_unitCount num hd (unitExponent num den)).le
        (isNearest_unitCount num' hd' (unitExponent num den)) (by gcongr)
      omega
    · -- In the larger unit there are enough to make up for all of the smaller one.
      have hcount := unitCount_le hn hd
      have hcount' := le_unitCount hn' hd' (by omega)
      have hunits : (unitExponent num den + 1074).toNat + 1 ≤ (unitExponent num' den' + 1074).toNat := by omega
      have hmul := Nat.mul_le_mul_right fractionUnit hunits
      rw [Nat.add_mul, Nat.one_mul] at hmul
      omega

theorem nearestMagnitude_le_infinity (num den : Nat) : nearestMagnitude num den ≤ infinityMagnitude := by
  unfold nearestMagnitude
  split
  · exact Nat.zero_le _
  · exact min_le_right _ _

end

/-! ### Products -/

/-- The distance of a finite number from zero. -/
def size (x : Binary64) : ℚ := x.significand * 2 ^ x.exponent

theorem size_nonneg (x : Binary64) : 0 ≤ x.size := by
  unfold size
  positivity

theorem ratio_pos (x : Binary64) : 0 < x.ratio.2 := by
  unfold ratio
  split
  · exact Nat.one_pos
  · exact power_pos two_pos _

theorem ratio_eq_size (x : Binary64) : (x.ratio.1 : ℚ) / x.ratio.2 = x.size := by
  unfold ratio size
  split
  · rename_i he
    rw [Nat.cast_one, div_one, Nat.cast_mul, cast_power_toNat 2 he]
    rfl
  · rename_i he
    rw [cast_power_neg_toNat 2 (by omega), div_inv_eq_mul]
    rfl

/-- The larger magnitude is that of the larger number. -/
theorem size_le {x y : Binary64} (h : x.magnitude ≤ y.magnitude) : x.size ≤ y.size := by
  have hx : x.exponentField * fractionUnit + x.fractionField = x.magnitude := Nat.div_add_mod' _ _
  have hy : y.exponentField * fractionUnit + y.fractionField = y.magnitude := Nat.div_add_mod' _ _
  have hxlt : x.fractionField < fractionUnit := Nat.mod_lt _ (by decide)
  have hylt : y.fractionField < fractionUnit := Nat.mod_lt _ (by decide)
  have hfield : x.exponentField ≤ y.exponentField := Nat.div_le_div_right h
  unfold size
  by_cases hsame : max x.exponentField 1 = max y.exponentField 1
  · -- The units are the same, and the counts are in the order of the patterns.
    have hexponent : x.exponent = y.exponent := by rw [exponent, exponent, hsame]
    have hcount : x.significand ≤ y.significand := by
      rcases hfield.eq_or_lt with heq | hlt
      · unfold significand
        rw [heq] at hx ⊢
        split <;> omega
      · have hzero : x.exponentField = 0 := by omega
        rw [significand, if_pos hzero, significand, if_neg (by omega)]
        omega
    rw [hexponent]
    gcongr
  · have hexponent : x.exponent + 1 ≤ y.exponent := by
      unfold exponent
      omega
    have hcount : x.significand ≤ 2 * fractionUnit := by
      unfold significand
      split <;> omega
    have hcount' : fractionUnit ≤ y.significand := by
      rw [significand, if_neg (by omega)]
      exact Nat.le_add_right _ _
    calc (x.significand : ℚ) * 2 ^ x.exponent ≤ ((2 * fractionUnit : Nat) : ℚ) * 2 ^ x.exponent := by gcongr
      _ = (fractionUnit : ℚ) * 2 ^ (x.exponent + 1) := by
        rw [zpow_add₀ two_ne_zero, zpow_one, Nat.cast_mul, Nat.cast_two]
        ring
      _ ≤ (y.significand : ℚ) * 2 ^ y.exponent := by
        gcongr
        exact one_le_two

theorem magnitude_ofMagnitude (negative : Bool) {m : Nat} (h : m < signUnit) :
    (ofMagnitude negative m).magnitude = m := by
  unfold ofMagnitude magnitude
  rw [UInt64.toNat_ofNat']
  unfold signUnit at h ⊢
  cases negative with
  | true =>
    rw [if_pos rfl]
    omega
  | false =>
    rw [if_neg Bool.false_ne_true]
    omega

theorem magnitude_ofRatio (negative : Bool) (num den : Nat) :
    (ofRatio negative num den).magnitude = nearestMagnitude num den :=
  magnitude_ofMagnitude negative ((nearestMagnitude_le_infinity num den).trans_lt (by decide))

theorem magnitude_ofNat_le {m n : Nat} (h : m ≤ n) : (ofNat m).magnitude ≤ (ofNat n).magnitude := by
  rw [ofNat, ofNat, magnitude_ofRatio, magnitude_ofRatio]
  refine nearestMagnitude_le Nat.one_pos Nat.one_pos ?_
  gcongr

theorem magnitude_tenTo_le {m n : Nat} (h : m ≤ n) : (tenTo m).magnitude ≤ (tenTo n).magnitude :=
  magnitude_ofNat_le (power_le_power (by decide) h)

/-- A product grows with its factors. -/
theorem magnitude_mul_le {x x' y y' : Binary64} (hx : x.magnitude ≤ x'.magnitude) (hy : y.magnitude ≤ y'.magnitude) :
    (x.mul y).magnitude ≤ (x'.mul y').magnitude := by
  rw [mul, mul, magnitude_ofRatio, magnitude_ofRatio]
  refine nearestMagnitude_le (Nat.mul_pos x.ratio_pos y.ratio_pos) (Nat.mul_pos x'.ratio_pos y'.ratio_pos) ?_
  simp only [Nat.cast_mul, mul_div_mul_comm, ratio_eq_size]
  exact mul_le_mul (size_le hx) (size_le hy) y.size_nonneg x'.size_nonneg

theorem isFinite_of_le {x y : Binary64} (h : x.magnitude ≤ y.magnitude) (hy : y.isFinite = true) : x.isFinite = true :=
  decide_eq_true (h.trans_lt (of_decide_eq_true hy))

end Binary64
end Backend
