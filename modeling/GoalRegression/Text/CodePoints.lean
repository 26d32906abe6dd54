/-
Sets of code points as closed ranges.
-/

namespace GoalRegression.Text

/-- Whether a code point lies in one of the closed ranges. -/
def inRanges (ranges : List (Nat × Nat)) (n : Nat) : Bool := ranges.any fun r => r.1 ≤ n && n ≤ r.2

end GoalRegression.Text
