/-!
# Code points and tables of ranges

A property of characters that a standard lists is kept as a table of closed
ranges of code points. `Char.inRanges` reads such a table.
-/

namespace Ember.Text

/-- A table of closed ranges of code points, in increasing order. -/
abbrev Ranges := List (Nat × Nat)

/-- A character is in a table when one of the ranges holds its code point. -/
def inRanges (table : Ranges) (c : Char) : Bool :=
  table.any fun (low, high) => low ≤ c.toNat && c.toNat ≤ high

theorem inRanges_iff {table : Ranges} {c : Char} :
    inRanges table c = true ↔ ∃ r ∈ table, r.1 ≤ c.toNat ∧ c.toNat ≤ r.2 := by
  simp [inRanges]

end Ember.Text
