/-!
# Spans

A span is a half-open range of byte offsets into a text. Every token and every node of the syntax
tree carries one, so that whatever is said about a program can be shown at its place in the text.

## Main definitions

* `Span` — the range from `start` up to, not including, `stop`
* `Span.join` — the smallest span that covers two spans
* `Span.contains`, `Span.length`, `Span.isEmpty`, `Span.display`
-/

namespace LWorkbench

/-- The bytes from `start` up to, not including, `stop`. -/
structure Span where
  start : Nat
  stop : Nat
  deriving DecidableEq, Repr, Inhabited

namespace Span

/-- The smallest span that covers both. -/
def join (a b : Span) : Span where
  start := min a.start b.start
  stop := max a.stop b.stop

/-- Whether the byte at `offset` belongs to the span. -/
def contains (s : Span) (offset : Nat) : Bool :=
  s.start ≤ offset && offset < s.stop

/-- The number of bytes; a span that ends before it starts has none. -/
def length (s : Span) : Nat :=
  s.stop - s.start

/-- Whether no byte belongs to the span. -/
def isEmpty (s : Span) : Bool :=
  s.length == 0

/-- The span as shown to a reader: `start..stop`. -/
def display (s : Span) : String :=
  s!"{s.start}..{s.stop}"

theorem contains_iff {s : Span} {offset : Nat} :
    s.contains offset = true ↔ s.start ≤ offset ∧ offset < s.stop := by
  simp [contains]

end Span

end LWorkbench
