import Backend.Json.Scaling
import Backend.Proofs.Number.Layout

/-! Written numbers can be read again. The coefficient of a numeral is made of its first digits, so with its power of
    ten it is at most as large as the numeral. A shortest decimal is hardly larger than the number it reads back as.
    So a numeral that was written for a number is too large for the reader only next to the end of the range. -/

namespace Backend
namespace Json

/-! ### Gathering digits -/

theorem gather_eq (c : Nat) (ds : List Char) :
    ∃ taken, ds = taken ++ (gather c ds).2 ∧ (gather c ds).1 = Nat.ofDigitChars 10 taken c := by
  induction ds generalizing c with
  | nil => exact ⟨[], rfl, rfl⟩
  | cons d ds ih =>
    simp only [gather]
    split
    · obtain ⟨taken, hds, hcoefficient⟩ := ih (c * 10 + (d.toNat - '0'.toNat))
      refine ⟨d :: taken, congrArg (d :: ·) hds, ?_⟩
      rw [hcoefficient, Nat.ofDigitChars_cons, Nat.mul_comm]
    · exact ⟨[], rfl, rfl⟩

theorem gather_le {c : Nat} (h : c ≤ maxCoefficient) (ds : List Char) : (gather c ds).1 ≤ maxCoefficient := by
  induction ds generalizing c with
  | nil => exact h
  | cons d ds ih =>
    simp only [gather]
    split
    · rename_i hnext
      exact ih hnext
    · exact h

theorem le_ofDigitChars (c : Nat) (ds : List Char) : 10 ^ ds.length * c ≤ Nat.ofDigitChars 10 ds c := by
  rw [Nat.ofDigitChars_eq_ofDigitChars_zero]
  exact Nat.le_add_right _ _

/-- Digits that make a small enough number are all gathered. -/
theorem gather_of_le {c : Nat} {ds : List Char} (h : Nat.ofDigitChars 10 ds c ≤ maxCoefficient) :
    gather c ds = (Nat.ofDigitChars 10 ds c, []) := by
  induction ds generalizing c with
  | nil => rfl
  | cons d ds ih =>
    rw [Nat.ofDigitChars_cons, Nat.mul_comm] at h ⊢
    have hnext : c * 10 + (d.toNat - '0'.toNat) ≤ maxCoefficient := by
      refine Nat.le_trans ?_ ((le_ofDigitChars _ ds).trans h)
      exact Nat.le_mul_of_pos_left _ (Nat.pow_pos (by decide))
    simp only [gather, hnext, if_true]
    exact ih h

/-- Coefficient and exponent of a numeral make no larger number than the numeral. -/
theorem Numeral.scaled_le {n : Numeral} (h : Nat.ofDigitChars 10 n.whole 0 ≤ maxCoefficient) :
    n.scaled.1 ≤ maxCoefficient ∧ (n.scaled.1 : ℚ) * 10 ^ n.scaled.2 ≤ n.size := by
  obtain ⟨taken, hfraction, hcoefficient⟩ := gather_eq (Nat.ofDigitChars 10 n.whole 0) (n.fraction.getD [])
  have hle := gather_le h (n.fraction.getD [])
  unfold scaled
  rw [gather_of_le h]
  simp only
  refine ⟨hle, ?_⟩
  rw [hcoefficient] at hle ⊢
  generalize (gather (Nat.ofDigitChars 10 n.whole 0) (n.fraction.getD [])).2 = lost at hfraction ⊢
  generalize hc : Nat.ofDigitChars 10 taken (Nat.ofDigitChars 10 n.whole 0) = c
  have hsize : n.size = Nat.ofDigitChars 10 lost c * 10 ^ (n.exponent.getD 0 - (taken ++ lost).length : Int) := by
    rw [size, hfraction, Nat.ofDigitChars_append, Nat.ofDigitChars_append, hc]
  have hexponent : n.exponent.getD 0 + (([] : List Char).length : Int) -
      (((n.fraction.getD []).length - lost.length : Nat) : Int) =
        lost.length + (n.exponent.getD 0 - (taken ++ lost).length) := by
    rw [hfraction, List.length_append, List.length_nil]
    omega
  rw [hsize, hexponent, zpow_add₀ (by decide), ← mul_assoc, zpow_natCast]
  have hlost : ((10 ^ lost.length * c : Nat) : ℚ) ≤ Nat.ofDigitChars 10 lost c :=
    Nat.cast_le.mpr (le_ofDigitChars c lost)
  rw [Nat.cast_mul, Nat.cast_pow, mul_comm] at hlost
  gcongr
  exact hlost

/-! ### Products that are finite -/

/-- The largest finite number but one. -/
def nextToLargest : Binary64 := ⟨0x7FEFFFFFFFFFFFFE⟩

/-- That number, which is an integer. -/
def limit : Nat := 0x1FFFFFFFFFFFFE * power 2 971

theorem size_nextToLargest : nextToLargest.size = limit := by
  rw [← Binary64.ratio_eq_size]
  have hratio : nextToLargest.ratio = (limit, 1) := by decide +kernel
  rw [hratio, Nat.cast_one, div_one]

/-- Up to this power of ten no coefficient is too large. -/
theorem isFinite_product_288 : ((Binary64.ofNat maxCoefficient).mul (.tenTo 288)).isFinite = true := by decide +kernel

/-- From there on the largest coefficient of a number up to the limit is not. Coefficient, power and product are all
    rounded, and with the largest finite number as the limit some products would be infinite. -/
theorem isFinite_largest_product : ∀ e ≤ maxExponent, 288 < e →
    ((Binary64.ofNat (limit / power 10 e)).mul (.tenTo e)).isFinite = true := by
  decide +kernel

theorem isSome_multiplyByTen? {c e : Nat} (hc : c ≤ maxCoefficient) (hpos : 0 < c) (h : c * power 10 e ≤ limit) :
    (multiplyByTen? (.ofNat c) e).isSome := by
  have he : e ≤ maxExponent := by
    by_contra hlt
    have hpower : power 10 (maxExponent + 1) ≤ power 10 e := power_le_power (by decide) (Nat.lt_of_not_le hlt)
    have hlimit : limit < power 10 (maxExponent + 1) := by decide +kernel
    have hle := Nat.le_mul_of_pos_left (power 10 e) hpos
    omega
  have hfinite : ((Binary64.ofNat c).mul (.tenTo e)).isFinite = true := by
    by_cases hsmall : e ≤ 288
    · refine Binary64.isFinite_of_le ?_ isFinite_product_288
      exact Binary64.magnitude_mul_le (Binary64.magnitude_ofNat_le hc) (Binary64.magnitude_tenTo_le hsmall)
    · have hcoefficient : c ≤ limit / power 10 e := (Nat.le_div_iff_mul_le (power_pos (by decide) e)).mpr h
      refine Binary64.isFinite_of_le ?_ (isFinite_largest_product e he (Nat.lt_of_not_le hsmall))
      exact Binary64.magnitude_mul_le (Binary64.magnitude_ofNat_le hcoefficient) le_rfl
  rw [multiplyByTen?, if_neg (Nat.not_lt.mpr he)]
  simp only [hfinite, if_true, Option.isSome_some]

/-- A numeral up to the limit is not too large for the reader. -/
theorem Numeral.isSome_toBinary64? {n : Numeral} (hwhole : Nat.ofDigitChars 10 n.whole 0 ≤ maxCoefficient)
    (hsize : n.size ≤ limit) : n.toBinary64?.isSome := by
  obtain ⟨hc, hle⟩ := scaled_le hwhole
  unfold toBinary64?
  generalize n.scaled = scaled at hc hle
  obtain ⟨c, e⟩ := scaled
  rw [Option.isSome_map]
  simp only at hc hle ⊢
  split
  · rfl
  · rename_i hpos
    split
    · rename_i he
      refine isSome_multiplyByTen? hc (Nat.pos_of_ne_zero hpos) ?_
      have hproduct : (c : ℚ) * (power 10 e.toNat : Nat) ≤ limit := by
        rw [cast_power_toNat 10 he]
        exact hle.trans hsize
      exact_mod_cast hproduct
    · rfl

end Json

/-! ### The size of a shortest decimal -/

namespace Binary64
open Json

theorem size_exact (x : Binary64) : x.exact.size = x.size := by
  unfold exact
  split
  · rename_i he
    rw [Scientific.size, zpow_zero, mul_one, Nat.cast_mul, cast_power_toNat 2 he]
    rfl
  · rename_i he
    have hten : (10 : ℚ) ^ x.exponent = 2 ^ x.exponent * 5 ^ x.exponent := by
      rw [← mul_zpow]
      norm_num
    have hfive : ((power 5 (-x.exponent).toNat : Nat) : ℚ) * 5 ^ x.exponent = 1 := by
      rw [cast_power_neg_toNat 5 (by omega)]
      exact inv_mul_cancel₀ (by positivity)
    rw [Scientific.size, hten, Nat.cast_mul, mul_mul_mul_comm, hfive, mul_one]
    rfl

/-- A decimal that reads back as a number is rounded to it. -/
theorem nearestMagnitude_of_readsBack {x : Binary64} {d : Scientific} (hzero : x.isZero = false)
    (hfinite : x.isFinite = true) (h : x.readsBack d = true) :
    ∃ num den : Nat, 0 < den ∧ d.size = (num : ℚ) / den ∧ nearestMagnitude num den = x.magnitude := by
  have hmagnitude := magnitude_of_readsBack h
  have hpositive : x.magnitude ≠ 0 := of_decide_eq_false hzero
  have hbelow : x.magnitude < infinityMagnitude := of_decide_eq_true hfinite
  unfold ofDecimal at hmagnitude
  -- The answers without rounding are zero and infinity, and the number is neither.
  split at hmagnitude
  · rw [magnitude_ofMagnitude false (by decide)] at hmagnitude
    omega
  split at hmagnitude
  · rw [magnitude_ofMagnitude false (by decide)] at hmagnitude
    omega
  split at hmagnitude
  · rw [magnitude_ofMagnitude false (by decide)] at hmagnitude
    omega
  split at hmagnitude
  · rename_i he
    refine ⟨_, 1, Nat.one_pos, ?_, (magnitude_ofRatio false _ 1).symm.trans hmagnitude⟩
    rw [Scientific.size, Nat.cast_one, div_one, Nat.cast_mul, cast_power_toNat 10 he]
    rfl
  · rename_i he
    refine ⟨_, _, power_pos (by decide) _, ?_, (magnitude_ofRatio false _ _).symm.trans hmagnitude⟩
    rw [Scientific.size, cast_power_neg_toNat 10 (by omega), div_inv_eq_mul]
    rfl

theorem size_shortest_le {x : Binary64} (hzero : x.isZero = false) (h : x.magnitude < nextToLargest.magnitude)
    (tie : Tie) : (x.shortest tie).size ≤ limit := by
  unfold shortest
  cases hsearch : searchGrids tie x 19 x.topExponent with
  | none =>
    rw [Option.getD_none, size_exact, ← size_nextToLargest]
    exact size_le h.le
  | some d =>
    have hfinite : x.isFinite = true := decide_eq_true (h.trans (by decide))
    obtain ⟨num, den, hden, hsize, hround⟩ :=
      nearestMagnitude_of_readsBack hzero hfinite (readsBack_of_searchGrids hsearch)
    rw [Option.getD_some, hsize]
    by_contra hlt
    -- A larger decimal would not be rounded to a smaller number than the limit is.
    have hle : nearestMagnitude limit 1 ≤ nearestMagnitude num den := by
      refine nearestMagnitude_le Nat.one_pos hden ?_
      rw [Nat.cast_one, div_one]
      exact (not_le.mp hlt).le
    have hlimit : nearestMagnitude limit 1 = nextToLargest.magnitude := by decide +kernel
    omega

end Binary64

/-- What is written for a number, if that is not next to the end of the range, is not too large for the reader. -/
theorem Layout.isSome_toBinary64?_write {layout : Layout} (hlayout : layout.greatest ≤ 18) {x : Binary64}
    (hzero : x.isZero = false) (h : x.magnitude < Json.nextToLargest.magnitude) :
    ((Json.numeral? (layout.write x)).bind Json.Numeral.toBinary64?).isSome := by
  obtain ⟨n, hn, hsize, hwhole⟩ := layout.denotes_write hzero
  have hpower : 10 ^ max 1 (layout.greatest + 1).toNat ≤ 10 ^ 19 := Nat.pow_le_pow_right (by decide) (by omega)
  rw [hn, Option.bind_some]
  refine Json.Numeral.isSome_toBinary64? ?_ ?_
  · unfold Json.maxCoefficient
    omega
  · rw [hsize]
    exact Binary64.size_shortest_le hzero h layout.tie

end Backend
