import Backend.Number.Layout
import Backend.Proofs.Json.Numeral
import Backend.Proofs.Number.Rounding

/-! The written form of a binary number is a number in JSON, whatever the layout, and its size is that of the shortest
    decimal. The digits of the shortest decimal of a number other than zero do not start with a zero, and all else is
    put around them by the layout. -/

namespace Backend

namespace Binary64

theorem magnitude_lt (x : Binary64) : x.magnitude < signUnit := Nat.mod_lt _ (by decide)

/-! ### The shortest decimal is not zero -/

theorem magnitude_of_readsBack {x : Binary64} {d : Scientific} (h : x.readsBack d = true) :
    (ofDecimal false d.coefficient d.exponent).magnitude = x.magnitude := by
  rw [magnitude, of_decide_eq_true h]
  exact magnitude_ofMagnitude false x.magnitude_lt

theorem isZero_of_readsBack {x : Binary64} {d : Scientific} (h : x.readsBack d = true) (hd : d.coefficient = 0) :
    x.isZero = true := by
  have hmagnitude := magnitude_of_readsBack h
  rw [ofDecimal, if_pos hd, magnitude_ofMagnitude false (by decide)] at hmagnitude
  exact decide_eq_true hmagnitude.symm

theorem readsBack_of_onGrid {tie : Tie} {x : Binary64} {e : Int} {d : Scientific} (h : onGrid tie x e = some d) :
    x.readsBack d = true := by
  unfold onGrid at h
  simp only at h
  generalize (if e < 0 then x.ratio.1 * power 10 (-e).toNat else x.ratio.1) = num at h
  generalize (if e < 0 then x.ratio.2 else x.ratio.2 * power 10 e.toNat) = den at h
  split at h
  · cases h
  · cases h
    assumption
  · cases h
    assumption
  · rename_i hlower hupper
    split at h
    · cases h
      exact hlower
    · split at h
      · cases h
        exact hupper
      · cases tie with
        | up =>
          cases h
          exact hupper
        | toEven =>
          simp only [Option.some.injEq] at h
          subst h
          split
          · exact hlower
          · exact hupper

theorem readsBack_of_searchGrids {tie : Tie} {x : Binary64} {count : Nat} {e : Int} {d : Scientific}
    (h : searchGrids tie x count e = some d) : x.readsBack d = true := by
  induction count generalizing e with
  | zero => cases h
  | succ count ih =>
    rw [searchGrids, Option.or_eq_some_iff] at h
    rcases h with h | ⟨-, h⟩
    · exact readsBack_of_onGrid h
    · exact ih h

theorem significand_pos {x : Binary64} (h : x.isZero = false) : 0 < x.significand := by
  have hm : x.magnitude ≠ 0 := of_decide_eq_false h
  unfold significand
  split
  · rename_i he
    have hlt : x.magnitude < fractionUnit := by
      unfold exponentField at he
      exact (Nat.div_eq_zero_iff_lt (by decide)).mp he
    rw [fractionField, Nat.mod_eq_of_lt hlt]
    exact Nat.pos_of_ne_zero hm
  · exact Nat.lt_of_lt_of_le (by decide) (Nat.le_add_right fractionUnit _)

theorem exact_coefficient_pos {x : Binary64} (h : x.isZero = false) : 0 < x.exact.coefficient := by
  unfold exact
  split
  · exact Nat.mul_pos (significand_pos h) (power_pos (by decide) _)
  · exact Nat.mul_pos (significand_pos h) (power_pos (by decide) _)

theorem shortest_coefficient_pos {x : Binary64} (h : x.isZero = false) (tie : Tie) :
    0 < (x.shortest tie).coefficient := by
  unfold shortest
  cases hsearch : searchGrids tie x 19 x.topExponent with
  | none => exact exact_coefficient_pos h
  | some d =>
    refine Nat.pos_of_ne_zero fun hd => ?_
    have := isZero_of_readsBack (readsBack_of_searchGrids hsearch) hd
    rw [h] at this
    cases this

end Binary64

/-! ### The layouts -/

/-- The distance of a number from zero, by its digits before and after the point and its exponent. -/
def Json.Numeral.size (n : Json.Numeral) : ℚ :=
  Nat.ofDigitChars 10 (n.whole ++ n.fraction.getD []) 0 *
    10 ^ (n.exponent.getD 0 - (n.fraction.getD []).length : Int)

def Scientific.size (d : Scientific) : ℚ := d.coefficient * 10 ^ d.exponent

namespace Layout
open Json

/-- The text is the text of a number, with a minus sign before it or not: a number of the given size, with at most
    `most` digits before its point. -/
def Denotes (cs : List Char) (size : ℚ) (most : Nat) : Prop :=
  ∀ negative : Bool, ∃ n, numeral? ((if negative then ['-'] else []) ++ cs) = some n ∧
    n.size = size ∧ Nat.ofDigitChars 10 n.whole 0 < 10 ^ most

theorem denotes_of_parts {whole fraction exponent : List Char} {ds : Option (List Char)} {e : Option Int}
    (hw : AreWhole whole) (hf : FractionText fraction ds) (he : ExponentText exponent e) :
    Denotes (whole ++ (fraction ++ exponent)) (Numeral.size ⟨false, whole, ds, e⟩) whole.length := by
  have hlt := ofDigitChars_lt hw.1.2 0
  rw [Nat.zero_add, Nat.mul_one] at hlt
  exact fun negative => ⟨_, numeral?_eq_some negative hw hf he, rfl, hlt⟩

theorem Denotes.mono {cs : List Char} {size : ℚ} {k most : Nat} (h : Denotes cs size k) (hk : k ≤ most) :
    Denotes cs size most := by
  intro negative
  obtain ⟨n, hn, hsize, hlt⟩ := h negative
  exact ⟨n, hn, hsize, hlt.trans_le (Nat.pow_le_pow_right (by decide) hk)⟩

theorem areDigits_append {a b : List Char} (ha : AreDigits a) (hb : ∀ c ∈ b, c.isDigit = true) : AreDigits (a ++ b) :=
  ⟨List.append_ne_nil_of_left_ne_nil ha.1 b, List.forall_mem_append.mpr ⟨ha.2, hb⟩⟩

theorem isDigit_of_mem_zeros {n : Nat} {c : Char} (h : c ∈ List.replicate n '0') : c.isDigit = true := by
  rw [List.eq_of_mem_replicate h]
  rfl

theorem areDigits_zero : AreDigits ['0'] := ⟨nofun, fun _ hc => isDigit_of_mem_zeros (n := 1) hc⟩

/-- The first digit of some, which is not zero, and any further digits. -/
theorem areWhole_take {digits more : List Char} {n : Nat} (hd : AreDigits digits) (hlead : digits.head? ≠ some '0')
    (hn : 0 < n) (hmore : ∀ c ∈ more, c.isDigit = true) : AreWhole (digits.take n ++ more) := by
  obtain ⟨c, cs, rfl⟩ := List.exists_cons_of_ne_nil hd.1
  obtain ⟨n, rfl⟩ := Nat.exists_eq_add_one_of_ne_zero (Nat.ne_of_gt hn)
  refine ⟨areDigits_append ⟨nofun, fun d hc => hd.2 d (List.mem_of_mem_take hc)⟩ hmore, fun hhead => ?_⟩
  exact absurd hhead hlead

theorem areDigits_drop {digits : List Char} {n : Nat} (hd : AreDigits digits) (hn : n < digits.length) :
    AreDigits (digits.drop n) := by
  refine ⟨fun hnil => ?_, fun c hc => hd.2 c (List.mem_of_mem_drop hc)⟩
  have := List.drop_eq_nil_iff.mp hnil
  omega

/-- The size of the digits with a point after the first `point` of them. -/
def sizeAround (digits : List Char) (point : Int) : ℚ :=
  Nat.ofDigitChars 10 digits 0 * 10 ^ (point - digits.length)

section
variable {digits : List Char} {point : Int}

theorem denotes_behind_point (hd : AreDigits digits) (hpoint : point ≤ 0) :
    Denotes (positional digits point) (sizeAround digits point) 1 := by
  have hfraction : AreDigits (List.replicate (-point).toNat '0' ++ digits) := by
    refine ⟨List.append_ne_nil_of_right_ne_nil _ hd.1, List.forall_mem_append.mpr ⟨?_, hd.2⟩⟩
    exact fun c hc => isDigit_of_mem_zeros hc
  have hzero : AreWhole ['0'] := ⟨areDigits_zero, fun _ => rfl⟩
  have hsize : Numeral.size ⟨false, ['0'], some (List.replicate (-point).toNat '0' ++ digits), none⟩ =
      sizeAround digits point := by
    have hdigits : Nat.ofDigitChars 10 (['0'] ++ (List.replicate (-point).toNat '0' ++ digits)) 0 =
        Nat.ofDigitChars 10 digits 0 := by
      rw [Nat.ofDigitChars_append, Nat.ofDigitChars_append, Nat.ofDigitChars_replicate_zero]
      rfl
    have hexponent : (0 : Int) - (List.replicate (-point).toNat '0' ++ digits).length = point - digits.length := by
      rw [List.length_append, List.length_replicate]
      omega
    simp only [Numeral.size, sizeAround, Option.getD_some, Option.getD_none, hdigits, hexponent]
  have htext : positional digits point =
      ['0'] ++ ('.' :: (List.replicate (-point).toNat '0' ++ digits) ++ []) := by
    rw [positional, if_pos hpoint, List.append_nil]
    rfl
  have := denotes_of_parts hzero (.present hfraction) .absent
  rw [hsize, ← htext] at this
  exact this

theorem denotes_before_point (hd : AreDigits digits) (hlead : digits.head? ≠ some '0')
    (hpoint : digits.length ≤ point) : Denotes (positional digits point) (sizeAround digits point) point.toNat := by
  have hlength := List.length_pos_iff.mpr hd.1
  obtain ⟨k, rfl⟩ : ∃ k : Nat, point = (digits.length + k : Nat) := ⟨(point - digits.length).toNat, by omega⟩
  have hwhole : AreWhole (digits.take digits.length ++ List.replicate k '0') :=
    areWhole_take hd hlead hlength fun c hc => isDigit_of_mem_zeros hc
  rw [List.take_length] at hwhole
  have hsize : Numeral.size ⟨false, digits ++ List.replicate k '0', some ['0'], none⟩ =
      sizeAround digits (digits.length + k : Nat) := by
    have hdigits : Nat.ofDigitChars 10 (digits ++ List.replicate k '0' ++ ['0']) 0 =
        Nat.ofDigitChars 10 digits 0 * 10 ^ k * 10 := by
      rw [Nat.ofDigitChars_append, Nat.ofDigitChars_append, Nat.ofDigitChars_replicate_zero, Nat.mul_comm (10 ^ k)]
      exact Nat.mul_comm 10 _
    have hexponent : ((digits.length + k : Nat) : Int) - digits.length = k := by omega
    simp only [Numeral.size, sizeAround, Option.getD_some, Option.getD_none, hdigits, hexponent, Nat.cast_mul,
      Nat.cast_pow, zpow_natCast]
    exact mul_inv_cancel_right₀ (by decide) _
  have htext : positional digits (digits.length + k : Nat) = digits ++ List.replicate k '0' ++ (['.', '0'] ++ []) := by
    rw [positional, if_neg (by omega)]
    simp only [Int.toNat_natCast]
    rw [List.take_of_length_le (by omega), List.drop_of_length_le (by omega), Nat.add_sub_cancel_left]
    rfl
  have := denotes_of_parts hwhole (.present areDigits_zero) .absent
  rw [hsize, ← htext, List.length_append, List.length_replicate] at this
  exact this

theorem denotes_around_point (hd : AreDigits digits) (hlead : digits.head? ≠ some '0') (hpos : 0 < point)
    (hpoint : point < digits.length) : Denotes (positional digits point) (sizeAround digits point) point.toNat := by
  obtain ⟨k, rfl⟩ : ∃ k : Nat, point = k := ⟨point.toNat, by omega⟩
  have hwhole : AreWhole (digits.take k ++ []) := areWhole_take hd hlead (by omega) nofun
  rw [List.append_nil] at hwhole
  have hfraction : AreDigits (digits.drop k) := areDigits_drop hd (by omega)
  have hsize : Numeral.size ⟨false, digits.take k, some (digits.drop k), none⟩ = sizeAround digits k := by
    have hexponent : (0 : Int) - (digits.drop k).length = k - digits.length := by
      rw [List.length_drop]
      omega
    simp only [Numeral.size, sizeAround, Option.getD_some, Option.getD_none, List.take_append_drop, hexponent]
  have htext : positional digits k = digits.take k ++ ('.' :: digits.drop k ++ []) := by
    have hzeros : k - digits.length = 0 := by omega
    have hafter : (digits.drop k).isEmpty = false := List.isEmpty_eq_false_iff.mpr hfraction.1
    rw [positional, if_neg (by omega)]
    simp only [Int.toNat_natCast, hzeros, hafter, List.replicate_zero, List.append_nil, Bool.false_eq_true, if_false]
  have := denotes_of_parts hwhole (.present hfraction) .absent
  rw [hsize, ← htext] at this
  exact this.mono (List.length_take_le _ _)

theorem denotes_positional (hd : AreDigits digits) (hlead : digits.head? ≠ some '0') :
    Denotes (positional digits point) (sizeAround digits point) (max 1 point.toNat) := by
  by_cases hpos : point ≤ 0
  · exact (denotes_behind_point hd hpos).mono (Nat.le_max_left _ _)
  · by_cases hlength : digits.length ≤ point
    · exact (denotes_before_point hd hlead hlength).mono (Nat.le_max_right _ _)
    · exact (denotes_around_point hd hlead (by omega) (by omega)).mono (Nat.le_max_right _ _)

theorem exponentText_signed (plus : Bool) (e : Int) :
    ExponentText ('e' :: ((if e < 0 then ['-'] else if plus then ['+'] else []) ++ Nat.toDigits 10 e.natAbs))
      (some e) := by
  have hdigits := areDigits_toDigits e.natAbs
  have hnat : Nat.ofDigitChars 10 (Nat.toDigits 10 e.natAbs) 0 = e.natAbs := Nat.ofDigitChars_ten_toDigits
  split
  · have he : some e = some (-Nat.ofDigitChars 10 (Nat.toDigits 10 e.natAbs) 0 : Int) := congrArg some (by omega)
    rw [he]
    exact .minus hdigits
  · have he : some e = some (Nat.ofDigitChars 10 (Nat.toDigits 10 e.natAbs) 0 : Int) := congrArg some (by omega)
    rw [he]
    split
    · exact .plus hdigits
    · exact .plain hdigits

theorem denotes_exponential (hd : AreDigits digits) (hlead : digits.head? ≠ some '0') (plus : Bool) :
    Denotes (exponential plus digits (point - 1)) (sizeAround digits point) 1 := by
  have hlength := List.length_pos_iff.mpr hd.1
  have hwhole : AreWhole (digits.take 1 ++ []) := areWhole_take hd hlead Nat.one_pos nofun
  rw [List.append_nil] at hwhole
  obtain ⟨ds, hfraction, hds⟩ : ∃ ds, FractionText (if (digits.drop 1).isEmpty then [] else '.' :: digits.drop 1) ds ∧
      ds.getD [] = digits.drop 1 := by
    split
    · rename_i hempty
      exact ⟨none, .absent, (List.isEmpty_iff.mp hempty).symm⟩
    · rename_i hempty
      exact ⟨_, .present ⟨fun hnil => hempty (by rw [hnil]; rfl), fun c hc => hd.2 c (List.mem_of_mem_drop hc)⟩, rfl⟩
  have hsize : Numeral.size ⟨false, digits.take 1, ds, some (point - 1)⟩ = sizeAround digits point := by
    have hexponent : point - 1 - ((digits.drop 1).length : Int) = point - digits.length := by
      rw [List.length_drop]
      omega
    simp only [Numeral.size, sizeAround, Option.getD_some, hds, List.take_append_drop, hexponent]
  have := denotes_of_parts hwhole hfraction (exponentText_signed plus (point - 1))
  rw [hsize, ← List.append_assoc] at this
  exact this.mono (List.length_take_le _ _)

end

/-- What a layout writes for a number other than zero is a number of the size of the shortest decimal. -/
theorem denotes_write (layout : Layout) {x : Binary64} (h : x.isZero = false) :
    ∃ n, numeral? (layout.write x) = some n ∧ n.size = (x.shortest layout.tie).size ∧
      Nat.ofDigitChars 10 n.whole 0 < 10 ^ max 1 (layout.greatest + 1).toNat := by
  have hpos := Binary64.shortest_coefficient_pos h layout.tie
  have hd := areDigits_toDigits (x.shortest layout.tie).coefficient
  have hlead := head?_toDigits_ne hpos
  unfold write
  simp only [h, Bool.false_eq_true, if_false]
  generalize hdigits : Nat.toDigits 10 (x.shortest layout.tie).coefficient = digits at hd hlead
  have hsize : sizeAround digits ((x.shortest layout.tie).exponent + digits.length) =
      (x.shortest layout.tie).size := by
    rw [sizeAround, ← hdigits, Nat.ofDigitChars_ten_toDigits, Int.add_sub_cancel]
    rfl
  rw [← hsize]
  generalize (x.shortest layout.tie).exponent + (digits.length : Int) = point
  by_cases hinside : layout.least < point ∧ point ≤ layout.greatest + 1
  · rw [if_pos hinside]
    exact (denotes_positional hd hlead).mono (by omega) x.negative
  · rw [if_neg hinside]
    exact (denotes_exponential hd hlead layout.plus).mono (Nat.le_max_left _ _) x.negative

/-- What a layout writes is a number. -/
theorem numeral?_write (layout : Layout) (x : Binary64) : (numeral? (layout.write x)).isSome := by
  cases hzero : x.isZero with
  | true =>
    rw [write, hzero]
    cases x.negative <;> rfl
  | false =>
    obtain ⟨n, hn, -⟩ := layout.denotes_write hzero
    rw [hn]
    rfl

end Layout
end Backend
