/-!
# Spans over source text

Offsets and lengths are 32-bit words throughout: a value never exceeds `maxOffset`, and the one
sum that could overflow, the end of a span, stops there instead.  A span says where an inline value
lives and which part of a file the editor is showing.

`Span.touches` is the visibility test of the whole query.  Both of its ends are inclusive, so two
spans that merely meet at an offset touch each other.
-/

namespace InlineValues

/-- The largest offset, length, line or column: all of them are 32-bit words. -/
def maxOffset : Nat := 4294967295

/-- A range of source text, given by its first offset and its length. -/
structure Span where
  start : Nat
  length : Nat
  deriving DecidableEq, Repr, Inhabited

namespace Span

/-- The span of `[start, stop)`.  An inverted range is the empty span at `start`. -/
def ofBounds (start stop : Nat) : Span := ⟨start, stop - start⟩

/-- The span that covers every offset but the last one. -/
def everything : Span := ⟨0, maxOffset⟩

/-- The offset one past the span, held at `maxOffset`. -/
def stop (s : Span) : Nat := min (s.start + s.length) maxOffset

/-- A span of length zero. -/
def isEmpty (s : Span) : Bool := s.length == 0

/-- Whether an offset lies in `[start, stop)`. -/
def contains (s : Span) (offset : Nat) : Bool := s.start ≤ offset && offset < s.stop

/-- Whether two spans touch, their ends included. -/
def touches (s t : Span) : Bool := t.start ≤ s.stop && s.start ≤ t.stop

@[simp] theorem start_ofBounds (a b : Nat) : (ofBounds a b).start = a := rfl

theorem stop_ofBounds {a b : Nat} (hab : a ≤ b) (hb : b ≤ maxOffset) :
    (ofBounds a b).stop = b := by
  simp only [ofBounds, stop]
  omega

end Span

end InlineValues
