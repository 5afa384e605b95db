/-!
# Sets of code points

A set of characters is listed as closed ranges of code points in ascending order.
-/
namespace SelectionPlan.Text

/-- Membership of a character in a list of closed code point ranges. -/
def inRanges (ranges : List (Nat × Nat)) (c : Char) : Bool :=
  ranges.any fun range => decide (range.1 ≤ c.toNat) && decide (c.toNat ≤ range.2)

theorem inRanges_iff (ranges : List (Nat × Nat)) (c : Char) :
    inRanges ranges c = true ↔ ∃ range ∈ ranges, range.1 ≤ c.toNat ∧ c.toNat ≤ range.2 := by
  simp [inRanges, List.any_eq_true]

end SelectionPlan.Text
