/-!
# Sets of code points

Properties of characters from the Unicode tables are kept as lists of closed ranges.

* `CodePointRanges.contains_iff`: membership is lying in one of the ranges.
-/

namespace VersionedSite.Text

/-- Closed ranges of code points, each as its first and its last member. -/
abbrev CodePointRanges := List (Nat × Nat)

/-- Whether a code point lies in one of the ranges. -/
def CodePointRanges.contains (ranges : CodePointRanges) (n : Nat) : Bool :=
  ranges.any fun r => r.1 ≤ n && n ≤ r.2

theorem CodePointRanges.contains_iff {ranges : CodePointRanges} {n : Nat} :
    ranges.contains n = true ↔ ∃ r ∈ ranges, r.1 ≤ n ∧ n ≤ r.2 := by
  simp [CodePointRanges.contains]

end VersionedSite.Text
