namespace DataClass

/-! Byte ranges of a source text.

Offsets count the bytes of the UTF-8 form of the text, so a range is meaningful
without knowing how the text was cut into characters.
-/

/-- The bytes from `start` up to, but not including, `stop`. -/
structure Span where
  start : Nat
  stop : Nat
deriving DecidableEq

namespace Span

/-- The empty range at the beginning of a text. -/
def origin : Span := ⟨0, 0⟩

/-- The smallest range that covers both. -/
def merge (left right : Span) : Span :=
  ⟨min left.start right.start, max left.stop right.stop⟩

/-- The number of bytes; a range that ends before it starts has none. -/
def length (span : Span) : Nat := span.stop - span.start

def isEmpty (span : Span) : Bool := span.length == 0

/-- The same range in a text that has `offset` more bytes in front. -/
def shift (offset : Nat) (span : Span) : Span :=
  ⟨span.start + offset, span.stop + offset⟩

/-- The range with both ends moved back into a text of `size` bytes. -/
def clamp (size : Nat) (span : Span) : Span :=
  ⟨min span.start size, min span.stop size⟩

@[simp] theorem shift_zero (span : Span) : span.shift 0 = span := rfl

theorem shift_merge (offset : Nat) (left right : Span) :
    (left.merge right).shift offset = (left.shift offset).merge (right.shift offset) := by
  simp [shift, merge, Nat.add_min_add_right, Nat.add_max_add_right]

end Span

end DataClass
