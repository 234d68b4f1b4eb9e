import Backend.Proofs.Package.Decoding

/-! The integers among the exact numbers. A number is an integer just if the power of ten below it divides the
    mantissa, and then the quotient is that integer. Wherever a number comes from, the power, the remainder and the
    quotient can all be held in 128 bits, at both ends of the range too, so words of that size are enough to tell. -/

namespace Backend
namespace Decimal

/-! ### Where numbers come from -/

/-- The numbers that can be met: those that come up here, those read from JSON, and those in a decoded package. -/
inductive Obtained : Decimal → Prop where
  | made {d : Decimal} (h : d.Constructible) : Obtained d
  | read {v : Json} {d : Decimal} (h : v.decimal? = some d) : Obtained d
  | decoded {text : String} {p : Package} {c : Constant} (h : Package.decode text = .ok p) (hc : c ∈ p.allConstants) :
    Obtained c.value

theorem Obtained.bounds {d : Decimal} (h : d.Obtained) : InRange d.mantissa ∧ d.scale ≤ maxScale := by
  cases h with
  | made h => exact h.bounds
  | read h => exact (Json.gives_decimal? _ d h).bounds
  | decoded h hc => exact (Package.constructible_of_decode h _ hc).bounds

/-! ### Arithmetic in words -/

/-- The word that holds an integer, if one of 128 bits does. -/
def word? (n : Int) : Option Int := if InRange n then some n else none

/-- The quotient of two words, cut off toward zero. Nothing is divided by zero, and a quotient may be too large. -/
def wordQuotient? (m n : Int) : Option Int := if n = 0 then none else word? (m.tdiv n)

/-- The remainder of two words. There is none where there is no quotient. -/
def wordRemainder? (m n : Int) : Option Int := (wordQuotient? m n).bind fun _ => word? (m.tmod n)

/-- The integer that a number is, if it is one, told by words alone; nothing if a step has no word for its result. -/
def toIntByWords (d : Decimal) : Option (Option Int) := do
  let divisor ← word? (power 10 d.scale)
  let remainder ← wordRemainder? d.mantissa divisor
  if remainder = 0 then return some (← wordQuotient? d.mantissa divisor) else return none

section
variable {m n : Int}

theorem word?_of_inRange (h : InRange n) : word? n = some n := if_pos h

/-- The greatest power that can come up is 10²⁸, of 94 bits. -/
theorem inRange_power {k : Nat} (h : k ≤ maxScale) : InRange (power 10 k) := by
  have hle : power 10 k ≤ power 10 maxScale := power_le_power (by decide) h
  have hmax : power 10 maxScale < 0x80000000000000000000000000000000 := by decide
  unfold InRange
  omega

/-- What is no further from zero than a word, and on the same side of it, has a word. -/
theorem InRange.toward_zero {r : Int} (hm : InRange m) (hle : r.natAbs ≤ m.natAbs) (hpos : 0 ≤ m → 0 ≤ r)
    (hneg : m ≤ 0 → r ≤ 0) : InRange r := by
  unfold InRange at hm ⊢
  rcases Int.le_total 0 m with h | h
  · have := hpos h
    omega
  · have := hneg h
    omega

theorem inRange_tdiv (hm : InRange m) (hn : 0 < n) : InRange (m.tdiv n) := by
  refine hm.toward_zero (Int.natAbs_tdiv_le_natAbs m n) (fun h => Int.tdiv_nonneg h hn.le) fun h => ?_
  have hopposite := Int.tdiv_nonneg (Int.neg_nonneg_of_nonpos h) hn.le
  rw [Int.neg_tdiv] at hopposite
  omega

theorem inRange_tmod (hm : InRange m) (n : Int) : InRange (m.tmod n) := by
  refine hm.toward_zero ?_ (Int.tmod_nonneg n) fun h => ?_
  · rw [Int.natAbs_tmod]
    exact Nat.mod_le _ _
  · have hopposite := Int.tmod_nonneg n (Int.neg_nonneg_of_nonpos h)
    rw [Int.neg_tmod] at hopposite
    omega

theorem wordQuotient?_eq (hm : InRange m) (hn : 0 < n) : wordQuotient? m n = some (m.tdiv n) := by
  rw [wordQuotient?, if_neg hn.ne', word?_of_inRange (inRange_tdiv hm hn)]

-- Of a divisor below zero this is not true: the least word has no opposite.
example : wordQuotient? (-0x80000000000000000000000000000000) (-1) = none := by decide

theorem wordRemainder?_eq (hm : InRange m) (hn : 0 < n) : wordRemainder? m n = some (m.tmod n) := by
  rw [wordRemainder?, wordQuotient?_eq hm hn, Option.bind_some, word?_of_inRange (inRange_tmod hm n)]

end

section
variable {d : Decimal}

theorem divisor_pos (d : Decimal) : 0 < (power 10 d.scale : Int) := Int.natCast_pos.mpr (power_pos (by decide) _)

theorem toIntByWords_eq (hm : InRange d.mantissa) (hs : d.scale ≤ maxScale) : d.toIntByWords = some d.toInt? := by
  have hpos := d.divisor_pos
  simp only [toIntByWords, toInt?, word?_of_inRange (inRange_power hs), wordRemainder?_eq hm hpos,
    wordQuotient?_eq hm hpos, Option.bind_eq_bind, Option.bind_some]
  split <;> rfl

/-! ### Exactness -/

theorem toInt?_eq_some_iff {n : Int} : d.toInt? = some n ↔ d.mantissa = n * power 10 d.scale := by
  have hne : (power 10 d.scale : Int) ≠ 0 := d.divisor_pos.ne'
  unfold toInt?
  constructor
  · intro h
    split at h
    · rename_i hzero
      cases h
      exact (Int.tdiv_mul_cancel (Int.dvd_of_tmod_eq_zero hzero)).symm
    · cases h
  · intro h
    rw [h, Int.mul_tmod_left, if_pos rfl, Int.mul_tdiv_cancel n hne]

theorem toInt?_eq_none_iff : d.toInt? = none ↔ ¬(power 10 d.scale : Int) ∣ d.mantissa := by
  rw [Option.eq_none_iff_forall_ne_some]
  refine ⟨fun h hdvd => ?_, fun h n hn => h ?_⟩
  · obtain ⟨n, hn⟩ := hdvd
    exact h n (toInt?_eq_some_iff.mpr (hn.trans (Int.mul_comm _ n)))
  · exact ⟨n, (toInt?_eq_some_iff.mp hn).trans (Int.mul_comm n _)⟩

end

/-- The integers among the numbers are told exactly, and in words of 128 bits. Of a number that is made here, read from
    JSON or found in a decoded package, the scale is at most 28, the power of ten has a word, and remainder and quotient
    are found in words alone. It is the integer `n` just if the mantissa is `n` times that power, and none just if the
    power does not divide the mantissa. So each integer of 128 bits comes back from the number that it is made into. -/
theorem integers_are_told_exactly :
    (∀ d : Decimal, d.Obtained →
      d.scale ≤ maxScale ∧ InRange (power 10 d.scale) ∧ d.toIntByWords = some d.toInt? ∧
      (∀ n, d.toInt? = some n ↔ d.mantissa = n * power 10 d.scale) ∧
      (d.toInt? = none ↔ ¬(power 10 d.scale : Int) ∣ d.mantissa)) ∧
    ∀ n, InRange n → ∃ d, ofInt? n = some d ∧ d.toInt? = some n := by
  refine ⟨fun d h => ?_, fun n hn => ⟨⟨n, 0⟩, if_pos hn, toInt?_eq_some_iff.mpr (Int.mul_one n).symm⟩⟩
  obtain ⟨hm, hs⟩ := h.bounds
  exact ⟨hs, inRange_power hs, toIntByWords_eq hm hs, fun n => toInt?_eq_some_iff, toInt?_eq_none_iff⟩

/-- The greatest power of ten below a negative integer, and the least mantissa of all below the least one. -/
theorem least_integers_are_told :
    (parse "-17014118346.0000000000000000000000000000" = .ok ⟨-170141183460000000000000000000000000000, 28⟩ ∧
      (⟨-170141183460000000000000000000000000000, 28⟩ : Decimal).toInt? = some (-17014118346)) ∧
    parse "-17014118346046923173168730371588410572.8" = .ok ⟨-0x80000000000000000000000000000000, 1⟩ ∧
      (⟨-0x80000000000000000000000000000000, 1⟩ : Decimal).toInt? = none := by
  have hwhole : parse "-17014118346.0000000000000000000000000000" =
      .ok ⟨-170141183460000000000000000000000000000, 28⟩ := by rfl
  have hbroken : parse "-17014118346046923173168730371588410572.8" =
      .ok ⟨-0x80000000000000000000000000000000, 1⟩ := by rfl
  refine ⟨⟨hwhole, ?_⟩, hbroken, ?_⟩
  · exact ((integers_are_told_exactly.1 _ (.made (.parsed hwhole))).2.2.2.1 _).mpr (by decide)
  · exact (integers_are_told_exactly.1 _ (.made (.parsed hbroken))).2.2.2.2.mpr (by decide)

end Decimal
end Backend
