/-!
# Tables of code points

A property of characters is kept as its closed ranges of code points, in ascending order.
-/

namespace DalSchema.Text

/-- Whether `n` lies in one of the closed ranges of `table`. -/
def inRanges (table : List (Nat × Nat)) (n : Nat) : Bool :=
  table.any fun range => range.1 ≤ n && n ≤ range.2

theorem inRanges_eq_true_iff (table : List (Nat × Nat)) (n : Nat) :
    inRanges table n = true ↔ ∃ range ∈ table, range.1 ≤ n ∧ n ≤ range.2 := by
  simp [inRanges]

end DalSchema.Text
