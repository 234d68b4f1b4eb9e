import Backend.Text.Bytes

/-! Ranges of byte offsets in a source file. An offset is a word of 32 bits; one taken from a size in memory
    has to be below the largest word. -/

namespace Backend

/-- Why two numbers are no span. -/
inductive SpanFault where
  | tooLarge
  | reversed (start stop : Nat)
deriving Repr, DecidableEq

def SpanFault.message : SpanFault → String
  | .tooLarge => "assertion failed: offset < u32::MAX as usize"
  | .reversed start stop => s!"span starts after it ends: Offset({start})..Offset({stop})"

/-- A size as an offset. -/
def offset (n : Nat) : Except SpanFault Nat := if n < 0xFFFFFFFF then .ok n else .error .tooLarge

/-- The bytes from `start` up to `stop`. -/
structure Span where
  start : Nat
  stop : Nat
  start_le_stop : start ≤ stop
deriving Repr, DecidableEq

namespace Span

/-- The span between two offsets. -/
def ofOffsets (start stop : Nat) : Except SpanFault Span :=
  if h : start ≤ stop then .ok ⟨start, stop, h⟩ else .error (.reversed start stop)

/-- The span between two words. -/
def ofWords (start stop : UInt32) : Except SpanFault Span := ofOffsets start.toNat stop.toNat

/-- The span between two sizes in memory. -/
def ofSizes (start stop : Nat) : Except SpanFault Span := do
  let start ← offset start
  let stop ← offset stop
  ofOffsets start stop

/-- Spans are ordered by their start, then by their end. -/
def le (a b : Span) : Bool := a.start < b.start || (a.start = b.start && a.stop ≤ b.stop)

end Span
end Backend
