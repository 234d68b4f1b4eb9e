import Backend.Text.Bytes
import Mathlib.Tactic.SplitIfs

/-! Texts in the order of their bytes. The UTF-8 form of a character spells its code point in digits of six bits, the
    highest first. The first byte tells how many digits follow, and more of them make it larger. So texts compare by the
    bytes of their UTF-8 forms as they compare character by character. -/

namespace Backend
namespace Text

/-! ### Digits -/

/-- What a number has above its last `n` digits. -/
def upper : Nat → Nat → Nat
  | 0, v => v
  | n + 1, v => upper n (v / 64)

/-- A number spelled by its last `n` digits, each in a byte, behind a byte for what is above them. -/
def spelled (mark : Nat) : Nat → Nat → List UInt8
  | 0, v => [UInt8.ofNat (v + mark)]
  | n + 1, v => spelled mark n (v / 64) ++ [UInt8.ofNat (v % 64 + 128)]

theorem ofNat_lt_ofNat {a b : Nat} (h : a < b) (hb : b < 256) : UInt8.ofNat a < UInt8.ofNat b := by
  simp only [UInt8.lt_iff_toNat_lt, UInt8.toNat_ofNat']
  omega

theorem spelled_eq_cons (mark n v : Nat) : ∃ rest, spelled mark n v = UInt8.ofNat (upper n v + mark) :: rest := by
  induction n generalizing v with
  | zero => exact ⟨[], rfl⟩
  | succ n ih =>
    obtain ⟨rest, hrest⟩ := ih (v / 64)
    exact ⟨_, by rw [spelled, hrest, upper, List.cons_append]⟩

/-- With as many digits, the smaller number is spelled by the smaller bytes, whatever follows. -/
theorem spelled_append_lt {mark n v w : Nat} (h : v < w) (hw : upper n w + mark < 256) (l r : List UInt8) :
    spelled mark n v ++ l < spelled mark n w ++ r := by
  induction n generalizing v w l r with
  | zero => exact List.cons_lt_cons_iff.mpr (Or.inl (ofNat_lt_ofNat (Nat.add_lt_add_right h mark) hw))
  | succ n ih =>
    rw [spelled, spelled, List.append_assoc, List.append_assoc]
    rcases Nat.lt_or_ge (v / 64) (w / 64) with hlt | hge
    · exact ih hlt hw _ _
    · -- The numbers differ in the last digit only.
      have hsame : v / 64 = w / 64 := Nat.le_antisymm (Nat.div_le_div_right (Nat.le_of_lt h)) hge
      rw [hsame]
      exact List.append_left_lt (List.cons_lt_cons_iff.mpr (Or.inl (ofNat_lt_ofNat (by omega) (by omega))))

/-! ### Characters -/

/-- The number of digits that follow the first byte of a code point. -/
def further (v : Nat) : Nat := if v < 0x80 then 0 else if v < 0x800 then 1 else if v < 0x10000 then 2 else 3

/-- What the first byte holds besides, by the number of digits that follow. -/
def mark : Nat → Nat
  | 0 => 0
  | 1 => 0xC0
  | 2 => 0xE0
  | _ => 0xF0

theorem utf8EncodeChar_eq_spelled (c : Char) :
    String.utf8EncodeChar c = spelled (mark (further c.val.toNat)) (further c.val.toNat) c.val.toNat := by
  have hvalid : c.val.toNat < 0x110000 := by
    rcases c.valid with h | h <;> omega
  simp only [String.utf8EncodeChar]
  generalize c.val.toNat = v at hvalid ⊢
  split_ifs with h₁ h₂ h₃
  · have hfurther : further v = 0 := if_pos (by omega)
    simp [hfurther, spelled, mark]
  · have hfurther : further v = 1 := by rw [further, if_neg (by omega), if_pos (by omega)]
    have htop : v / 64 % 32 = v / 64 := Nat.mod_eq_of_lt (by omega)
    simp [hfurther, spelled, mark, htop]
  · have hfurther : further v = 2 := by rw [further, if_neg (by omega), if_neg (by omega), if_pos (by omega)]
    have htop : v / 4096 % 16 = v / 64 / 64 := by omega
    simp [hfurther, spelled, mark, htop]
  · have hfurther : further v = 3 := by rw [further, if_neg (by omega), if_neg (by omega), if_neg (by omega)]
    have htop : v / 262144 % 8 = v / 64 / 64 / 64 := by omega
    have hnext : v / 4096 % 64 = v / 64 / 64 % 64 := by omega
    simp [hfurther, spelled, mark, htop, hnext]

theorem upper_add_mark_lt {v : Nat} (h : v < 0x110000) : upper (further v) v + mark (further v) < 256 := by
  unfold further
  split_ifs <;> simp only [upper, mark] <;> omega

/-- More digits follow a larger first byte. -/
theorem upper_add_mark_lt_of_further_lt {v w : Nat} (hw : w < 0x110000) (h : further v < further w) :
    upper (further v) v + mark (further v) < upper (further w) w + mark (further w) := by
  unfold further at h ⊢
  split_ifs at h ⊢ <;> simp only [upper, mark] <;> omega

theorem further_mono {v w : Nat} (h : v < w) : further v ≤ further w := by
  unfold further
  split_ifs <;> omega

/-- Whatever follows, the smaller character has the smaller bytes. -/
theorem utf8EncodeChar_append_lt {c d : Char} (h : c < d) (l r : List UInt8) :
    String.utf8EncodeChar c ++ l < String.utf8EncodeChar d ++ r := by
  have hlt : c.val.toNat < d.val.toNat := h
  have hd : d.val.toNat < 0x110000 := by
    rcases d.valid with hvalid | hvalid <;> omega
  rw [utf8EncodeChar_eq_spelled, utf8EncodeChar_eq_spelled]
  rcases Nat.lt_or_eq_of_le (further_mono hlt) with hfurther | hfurther
  · obtain ⟨rest, hc⟩ := spelled_eq_cons (mark (further c.val.toNat)) (further c.val.toNat) c.val.toNat
    obtain ⟨rest', hd'⟩ := spelled_eq_cons (mark (further d.val.toNat)) (further d.val.toNat) d.val.toNat
    rw [hc, hd', List.cons_append, List.cons_append, List.cons_lt_cons_iff]
    exact Or.inl (ofNat_lt_ofNat (upper_add_mark_lt_of_further_lt hd hfurther) (upper_add_mark_lt hd))
  · rw [hfurther]
    exact spelled_append_lt hlt (upper_add_mark_lt hd) l r

/-! ### Texts -/

theorem bytes_lt_bytes {a b : List Char} (h : a < b) : bytes a < bytes b := by
  induction a generalizing b with
  | nil =>
    cases b with
    | nil => exact absurd h (List.lt_irrefl _)
    | cons d b =>
      obtain ⟨rest, hrest⟩ := spelled_eq_cons (mark (further d.val.toNat)) (further d.val.toNat) d.val.toNat
      rw [bytes, bytes, List.flatMap_cons, utf8EncodeChar_eq_spelled, hrest]
      exact List.nil_lt_cons _ _
  | cons c a ih =>
    cases b with
    | nil => exact absurd h (List.not_lt_nil _)
    | cons d b =>
      rw [bytes, bytes, List.flatMap_cons, List.flatMap_cons]
      rcases List.cons_lt_cons_iff.mp h with hlt | ⟨rfl, hlt⟩
      · exact utf8EncodeChar_append_lt hlt _ _
      · exact List.append_left_lt (ih hlt)

/-- Texts are in the order of their bytes. -/
theorem le_iff_bytes_le {s t : String} : s ≤ t ↔ bytes s.toList ≤ bytes t.toList := by
  constructor
  · intro hle hlt
    by_cases heq : s = t
    · rw [heq] at hlt
      exact List.lt_irrefl _ hlt
    · have hst : s < t := String.not_le.mp fun hts => heq (String.le_antisymm hle hts)
      exact List.lt_asymm (bytes_lt_bytes (String.lt_iff.mp hst)) hlt
  · intro hle
    refine String.not_lt.mp fun hts => ?_
    exact hle (bytes_lt_bytes (String.lt_iff.mp hts))

end Text
end Backend
