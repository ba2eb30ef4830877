/-!
# Character ranges

A class of characters is a list of closed code point ranges in ascending order; `inRanges` is
membership. The tables of the character database that use it stand in modules of their own.
-/

namespace ListQuery.Text

/-- A class of characters as closed ranges of code points. -/
abbrev Ranges := List (Nat × Nat)

def inRanges (table : Ranges) (c : Char) : Bool :=
  table.any fun r => decide (r.1 ≤ c.toNat) && decide (c.toNat ≤ r.2)

theorem inRanges_iff {table : Ranges} {c : Char} :
    inRanges table c = true ↔ ∃ r ∈ table, r.1 ≤ c.toNat ∧ c.toNat ≤ r.2 := by
  simp [inRanges]

end ListQuery.Text
