/-! Powers of a natural number. -/

namespace Backend

/-- The product of `n` copies of `base`. -/
def power (base n : Nat) : Nat := Nat.pow base n

theorem power_succ (base n : Nat) : power base (n + 1) = power base n * base := rfl

theorem power_pos {base : Nat} (h : 0 < base) (n : Nat) : 0 < power base n := by
  induction n with
  | zero => exact Nat.one_pos
  | succ n ih =>
    rw [power_succ]
    exact Nat.mul_pos ih h

end Backend
