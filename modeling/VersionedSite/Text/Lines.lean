/-!
# Lines

A line ends at a line feed, a carriage return, both together, a vertical tab, a form feed, one of
three information separators, a next-line character, or a line or paragraph separator. The last line
need not be ended.

* `lines_of_noBreak`: a text without a break is one line.
-/

namespace VersionedSite.Text

/-- Whether a character ends a line. -/
def isLineBreak (c : Char) : Bool :=
  let n := c.toNat
  (10 ≤ n && n ≤ 13) || (0x1c ≤ n && n ≤ 0x1e) || n == 0x85 || n == 0x2028 || n == 0x2029

/-- The lines of a text, given the reversed part of the line it starts in. -/
def linesFrom (line : List Char) : List Char → List (List Char)
  | [] => if line.isEmpty then [] else [line.reverse]
  | '\r' :: '\n' :: rest => line.reverse :: linesFrom [] rest
  | c :: rest =>
    if isLineBreak c then line.reverse :: linesFrom [] rest else linesFrom (c :: line) rest

/-- The lines of a text, without their ends. -/
def lines (s : List Char) : List (List Char) := linesFrom [] s

theorem linesFrom_of_noBreak {s : List Char} (h : ∀ c ∈ s, isLineBreak c = false)
    (line : List Char) : linesFrom line s = linesFrom (s.reverse ++ line) [] := by
  induction s generalizing line with
  | nil => rfl
  | cons c s ih =>
    have hc := h c (by simp)
    have hr : c ≠ '\r' := by rintro rfl; simp [isLineBreak] at hc
    rw [linesFrom.eq_3 _ _ _ (by intro _ he; exact absurd he hr)]
    simp only [hc, Bool.false_eq_true, ite_false]
    rw [ih (fun d hd => h d (by simp [hd]))]
    simp

theorem lines_of_noBreak {s : List Char} (h : ∀ c ∈ s, isLineBreak c = false) (hne : s ≠ []) :
    lines s = [s] := by
  simp [lines, linesFrom_of_noBreak h, linesFrom, hne]

end VersionedSite.Text
