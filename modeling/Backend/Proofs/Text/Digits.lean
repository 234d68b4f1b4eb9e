import Mathlib.Algebra.Group.Nat.Defs

/-! Digits and the numbers they make. -/

namespace Backend

section
variable {ds es : List Char}

theorem toNat_of_isDigit {c : Char} (h : c.isDigit = true) : '0'.toNat ≤ c.toNat ∧ c.toNat - '0'.toNat < 10 := by
  have hc : 48 ≤ c.toNat ∧ c.toNat ≤ 57 := by
    simpa [Char.isDigit, UInt32.le_iff_toNat_le] using h
  have hzero : '0'.toNat = 48 := rfl
  omega

/-- As many digits that make the same number are the same digits, whatever numbers stand before them. -/
theorem eq_of_ofDigitChars_eq (hd : ∀ c ∈ ds, c.isDigit = true) (he : ∀ c ∈ es, c.isDigit = true)
    (hlength : ds.length = es.length) {m n : Nat} (h : Nat.ofDigitChars 10 ds m = Nat.ofDigitChars 10 es n) :
    m = n ∧ ds = es := by
  induction ds generalizing es m n with
  | nil =>
    obtain rfl : es = [] := List.eq_nil_of_length_eq_zero hlength.symm
    exact ⟨h, rfl⟩
  | cons c ds ih =>
    cases es with
    | nil => cases hlength
    | cons e es =>
      rw [Nat.ofDigitChars_cons, Nat.ofDigitChars_cons] at h
      obtain ⟨hc, hds⟩ := List.forall_mem_cons.mp hd
      obtain ⟨he, hes⟩ := List.forall_mem_cons.mp he
      obtain ⟨hhead, htail⟩ := ih hds hes (Nat.succ.inj hlength) h
      have hc := toNat_of_isDigit hc
      have he := toNat_of_isDigit he
      have hchar : c = e := Char.toNat_inj.mp (by omega)
      exact ⟨by omega, by rw [hchar, htail]⟩

theorem ofDigitChars_lt (hd : ∀ c ∈ ds, c.isDigit = true) (n : Nat) :
    Nat.ofDigitChars 10 ds n < 10 ^ ds.length * (n + 1) := by
  induction ds generalizing n with
  | nil => simp
  | cons c ds ih =>
    obtain ⟨hc, hds⟩ := List.forall_mem_cons.mp hd
    have hc := toNat_of_isDigit hc
    rw [Nat.ofDigitChars_cons, List.length_cons, Nat.pow_succ, Nat.mul_assoc]
    refine Nat.lt_of_lt_of_le (ih hds _) (Nat.mul_le_mul_left _ ?_)
    omega

theorem ofDigitChars_eq_zero (hd : ∀ c ∈ ds, c.isDigit = true) (n : Nat) :
    Nat.ofDigitChars 10 ds n = 0 ↔ n = 0 ∧ ∀ c ∈ ds, c = '0' := by
  induction ds generalizing n with
  | nil => simp
  | cons c ds ih =>
    obtain ⟨hc, hds⟩ := List.forall_mem_cons.mp hd
    have hc := toNat_of_isDigit hc
    have hzero : c = '0' ↔ c.toNat = '0'.toNat := Char.toNat_inj.symm
    rw [Nat.ofDigitChars_cons, ih hds, List.forall_mem_cons, hzero, ← and_assoc]
    refine and_congr_left fun _ => ?_
    omega

end

/-- A positive number is written without a zero in front. -/
theorem head?_toDigits_ne {n : Nat} (h : 0 < n) : (Nat.toDigits 10 n).head? ≠ some '0' := by
  induction n using Nat.strongRecOn with
  | ind n ih =>
    by_cases hn : n < 10
    · rw [Nat.toDigits_of_lt_base hn]
      intro hhead
      have : n = 0 := Nat.digitChar_eq_zero.mp (Option.some.inj hhead)
      omega
    · rw [Nat.toDigits_of_base_le (by decide) (by omega)]
      have hrest := ih (n / 10) (by omega) (by omega)
      obtain ⟨c, cs, hcs⟩ := List.exists_cons_of_ne_nil (Nat.toDigits_ne_nil (n := n / 10) (b := 10))
      rw [hcs] at hrest ⊢
      exact hrest

end Backend
