/-
  LinkedData.Text.Ranges — classes of characters, given by the runs of their code points.

  A class is a list of runs in ascending order, each by its first and its last code point.
-/

namespace LinkedData.Text

def inRanges (ranges : List (Nat × Nat)) (n : Nat) : Bool := ranges.any fun r => r.1 ≤ n && n ≤ r.2

theorem inRanges_eq_true {ranges : List (Nat × Nat)} {n : Nat} :
    inRanges ranges n = true ↔ ∃ r ∈ ranges, r.1 ≤ n ∧ n ≤ r.2 := by
  simp [inRanges, List.any_eq_true]

end LinkedData.Text
