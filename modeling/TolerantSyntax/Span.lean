/-!
# Spans

A span is a range of the source, given by UTF-8 byte offsets. `start` belongs to it and `stop` does
not.
-/

namespace TolerantSyntax

/-- A range of bytes of the source. -/
structure Span where
  start : Nat := 0
  stop : Nat := 0
deriving DecidableEq, Repr, Inhabited

namespace Span

/-- The span of no bytes at `offset`. -/
def empty (offset : Nat) : Span := ⟨offset, offset⟩

/-- Length in bytes. -/
def length (span : Span) : Nat := span.stop - span.start

/-- Does the span hold no bytes? -/
def isEmpty (span : Span) : Bool := span.start == span.stop

/-- The smallest span that covers both. -/
def cover (a b : Span) : Span := ⟨min a.start b.start, max a.stop b.stop⟩

/-- How a span is written. -/
def text (span : Span) : String := toString span.start ++ ".." ++ toString span.stop

/-- Order by start, then by end. -/
def le (a b : Span) : Bool :=
  a.start < b.start || (a.start == b.start && a.stop ≤ b.stop)

@[simp] theorem start_empty (offset : Nat) : (empty offset).start = offset := rfl

@[simp] theorem stop_empty (offset : Nat) : (empty offset).stop = offset := rfl

@[simp] theorem isEmpty_empty (offset : Nat) : (empty offset).isEmpty = true := by
  simp [isEmpty, empty]

@[simp] theorem cover_self (a : Span) : a.cover a = a := by
  simp [cover]

theorem cover_comm (a b : Span) : a.cover b = b.cover a := by
  simp [cover, Nat.min_comm, Nat.max_comm]

theorem cover_assoc (a b c : Span) : (a.cover b).cover c = a.cover (b.cover c) := by
  simp [cover, Nat.min_assoc, Nat.max_assoc]

theorem le_trans {a b c : Span} (h : a.le b = true) (h' : b.le c = true) : a.le c = true := by
  simp only [le, Bool.or_eq_true, Bool.and_eq_true, decide_eq_true_eq, beq_iff_eq] at *
  omega

theorem le_total (a b : Span) : (a.le b || b.le a) = true := by
  simp only [le, Bool.or_eq_true, Bool.and_eq_true, decide_eq_true_eq, beq_iff_eq]
  omega

end Span

end TolerantSyntax
