/-!
# Sets of characters as ranges of code points

A character class is a list of inclusive ranges of code points, in increasing order.
-/

namespace EventForge.Text

/-- Membership of a character in a list of inclusive ranges of code points. -/
def inRanges (rs : List (Nat × Nat)) (c : Char) : Bool :=
  rs.any fun r => decide (r.1 ≤ c.toNat) && decide (c.toNat ≤ r.2)

theorem inRanges_iff {rs : List (Nat × Nat)} {c : Char} :
    inRanges rs c = true ↔ ∃ r ∈ rs, r.1 ≤ c.toNat ∧ c.toNat ≤ r.2 := by
  simp [inRanges]

end EventForge.Text
