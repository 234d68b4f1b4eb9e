import Backend.Proofs.Decimal
import Mathlib.Data.Nat.Digits.Defs

/-! The texts that are read as exact numbers. They are the texts of one grammar, less those with too many digits after
    the point and those whose digits make an integer of more than 128 bits; and these two are refused as what they
    are, so no digit is ever dropped to make a number fit. -/

namespace Backend
namespace Decimal

/-! ### The integer that digits write -/

/-- The integer written by a sign and digits: each digit counts ten times as much as the one after it. -/
def written (negative : Bool) (ds : List Char) : Int :=
  let magnitude : Nat := Nat.ofDigits 10 (ds.reverse.map fun c => c.toNat - '0'.toNat)
  if negative then -(magnitude : Int) else magnitude

theorem ofDigitChars_eq_ofDigits (ds : List Char) :
    Nat.ofDigitChars 10 ds 0 = Nat.ofDigits 10 (ds.reverse.map fun c => c.toNat - '0'.toNat) := by
  rw [Nat.ofDigits_eq_foldr, List.foldr_map, List.foldr_reverse, Nat.ofDigitChars]
  simp only [Nat.add_comm, Nat.cast_id]

theorem written_eq (negative : Bool) (ds : List Char) :
    written negative ds = if negative then -(Nat.ofDigitChars 10 ds 0 : Int) else (Nat.ofDigitChars 10 ds 0 : Int) := by
  rw [written, ofDigitChars_eq_ofDigits]

/-! ### Reading a text of the grammar -/

section
variable {s : String} {negative : Bool} {whole : List Char} {after : Option (List Char)}

/-- A text is spelled in one way only. -/
theorem IsSpelled.split_eq (h : IsSpelled s negative whole after) : split s.toList = (negative, whole, after) := by
  rw [h.text]
  exact split_signed negative after h.whole_ne fun c hc => h.digits c (List.mem_append_left _ hc)

/-- A text of the grammar is read as it is spelled, if there are not too many digits after the point and the integer
    that all digits write can be held. -/
theorem IsSpelled.parse_eq (h : IsSpelled s negative whole after) :
    parse s =
      if maxScale < digitCount (after.getD []) then .error (.tooPrecise s)
      else if InRange (written negative (whole ++ after.getD [])) then
        .ok ⟨written negative (whole ++ after.getD []), digitCount (after.getD [])⟩
      else .error (.outOfRange s) := by
  have hwhole : whole.isEmpty = false := List.isEmpty_eq_false_iff.mpr h.whole_ne
  have hall : (whole ++ after.getD []).all Char.isDigit = true := List.all_eq_true.mpr h.digits
  unfold parse
  rw [h.split_eq]
  simp only [hwhole, hall, ← written_eq]
  rw [if_neg (by decide), if_neg h.after_ne]

end

/-- Reading accepts just the texts of the grammar, with the right value. A text of less than 2³² bytes is read as a
    number just if it is a minus sign or none, digits and, after a point if there is one, one to 28 more digits, and
    the integer that all the digits write under the sign has 128 bits; and then that integer is the mantissa, and the
    scale is the number of digits after the point. A text of the grammar with more digits after the point, or with an
    integer out of range, is refused for that reason. -/
theorem parse_accepts_spelled (s : String) (hs : Text.byteLength s.toList < 0x100000000) :
    (∀ d, parse s = .ok d ↔ ∃ negative whole after, IsSpelled s negative whole after ∧
      (after.getD []).length ≤ maxScale ∧ InRange (written negative (whole ++ after.getD [])) ∧
      d = ⟨written negative (whole ++ after.getD []), (after.getD []).length⟩) ∧
    ∀ negative whole after, IsSpelled s negative whole after →
      (maxScale < (after.getD []).length → parse s = .error (.tooPrecise s)) ∧
      ((after.getD []).length ≤ maxScale → ¬InRange (written negative (whole ++ after.getD [])) →
        parse s = .error (.outOfRange s)) := by
  refine ⟨fun d => ⟨fun h => ?_, ?_⟩, fun negative whole after hspelled => ⟨fun hscale => ?_, fun hscale hrange => ?_⟩⟩
  · obtain ⟨hrange, hmax⟩ := (Constructible.parsed h).bounds
    obtain ⟨negative, whole, after, hspelled, hscale, hvalue⟩ := parse_eq_ok h
    rw [hspelled.digitCount_eq hs] at hscale
    rw [← written_eq] at hvalue
    refine ⟨negative, whole, after, hspelled, hscale ▸ hmax, hvalue ▸ hrange, ?_⟩
    rw [← hvalue, ← hscale]
  · rintro ⟨negative, whole, after, hspelled, hscale, hrange, rfl⟩
    rw [hspelled.parse_eq, hspelled.digitCount_eq hs, if_neg (Nat.not_lt.mpr hscale), if_pos hrange]
  · rw [hspelled.parse_eq, hspelled.digitCount_eq hs, if_pos hscale]
  · rw [hspelled.parse_eq, hspelled.digitCount_eq hs, if_neg (Nat.not_lt.mpr hscale), if_neg hrange]

/-- The least mantissa of all is read, though its digits alone would be one too many. -/
theorem least_parse_accepts_spelled :
    Text.byteLength "-17014118346046923173168730371588410572.8".toList < 0x100000000 ∧
    IsSpelled "-17014118346046923173168730371588410572.8" true "17014118346046923173168730371588410572".toList
      (some ['8']) ∧
    parse "-17014118346046923173168730371588410572.8" = .ok ⟨-0x80000000000000000000000000000000, 1⟩ := by
  have hs : Text.byteLength "-17014118346046923173168730371588410572.8".toList < 0x100000000 := by decide
  have hspelled : IsSpelled "-17014118346046923173168730371588410572.8" true
      "17014118346046923173168730371588410572".toList (some ['8']) :=
    ⟨by decide, by decide, by decide, List.all_eq_true.mp (by decide)⟩
  exact ⟨hs, hspelled, ((parse_accepts_spelled _ hs).1 _).mpr
    ⟨true, _, some ['8'], hspelled, by decide, by decide, by decide⟩⟩

end Decimal
end Backend
