/-! Ranges of code points, and white space: the characters of the Unicode property White_Space, 25 in all. -/

namespace Backend
namespace Text

/-- A code point lies in one of the given ranges. -/
def inRanges (ranges : List (Nat × Nat)) (n : Nat) : Bool := ranges.any fun (lo, hi) => lo ≤ n && n ≤ hi

/-- Each range has a code point, and starts after the one that follows the range before it. -/
def ascending : List (Nat × Nat) → Bool
  | [] => true
  | [(lo, hi)] => lo ≤ hi
  | (lo, hi) :: next :: rest => lo ≤ hi && hi + 1 < next.1 && ascending (next :: rest)

/-- The number of code points in ranges that do not overlap. -/
def rangesSize : List (Nat × Nat) → Nat
  | [] => 0
  | (lo, hi) :: rest => (hi + 1 - lo) + rangesSize rest

/-- First and last code point of each run of white space. -/
def blankRanges : List (Nat × Nat) :=
  [(0x0009, 0x000D), (0x0020, 0x0020), (0x0085, 0x0085), (0x00A0, 0x00A0), (0x1680, 0x1680), (0x2000, 0x200A),
   (0x2028, 0x2029), (0x202F, 0x202F), (0x205F, 0x205F), (0x3000, 0x3000)]

/-- White space. -/
def isBlank (c : Char) : Bool := inRanges blankRanges c.toNat

example : ascending blankRanges ∧ rangesSize blankRanges = 25 := by decide

end Text
end Backend
