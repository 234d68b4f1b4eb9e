import Backend.Number.Layout
import Backend.Text.Quoted

/-! How values are shown to a reader: in listings, in descriptions and in the journal. -/

namespace Backend

/-- Shown numbers are positional from `0.0001` up to `1e16`, and a tie between two digits goes up. -/
def shownLayout : Layout := ⟨-4, 15, false, .up⟩

/-- A number as it is shown. -/
def Binary64.shown (x : Binary64) : String :=
  if x.isNaN then "NaN"
  else if x.isInfinite then (if x.negative then "-inf" else "inf")
  else String.ofList (shownLayout.write x)

namespace Text

/-- Elements in brackets. -/
def bracketed (items : List String) : String := "[" ++ ", ".intercalate items ++ "]"

end Text
end Backend
