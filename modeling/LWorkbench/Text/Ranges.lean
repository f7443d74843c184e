/-!
# Ranges of characters

A property of characters is given by a table of the code points that have it. A table is a list of
closed ranges in increasing order.

## Main definitions

* `Ranges` — a table
* `Ranges.covers` — whether a table has a code point
* `Ranges.has` — whether a table has a character
-/

namespace LWorkbench

/-- A table of closed ranges of code points. -/
abbrev Ranges := List (Nat × Nat)

namespace Ranges

/-- Whether a code point lies in one of the ranges. -/
def covers (table : Ranges) (code : Nat) : Bool :=
  table.any fun range => range.1 ≤ code && code ≤ range.2

/-- Whether a character lies in one of the ranges. -/
def has (table : Ranges) (c : Char) : Bool :=
  table.covers c.toNat

end Ranges

end LWorkbench
