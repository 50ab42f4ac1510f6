import VersionedSite.Text.Lines

/-!
# Lines that are written one by one

Lines that hold no break, each with a line feed behind it, are read back as they are (`lines_flatMap`).
-/

namespace VersionedSite.Text

variable {s : List Char}

/-- Whether a text has no breaks. -/
def isUnbroken (s : List Char) : Bool := s.all fun c => !isLineBreak c

theorem isUnbroken_iff : isUnbroken s = true ↔ ∀ c ∈ s, isLineBreak c = false := by
  simp [isUnbroken]

theorem linesFrom_newline (line t : List Char) :
    linesFrom line ('\n' :: t) = line.reverse :: linesFrom [] t := by
  rw [linesFrom.eq_3 line '\n' t fun _ hr => absurd hr (by decide)]
  exact if_pos (by decide)

theorem linesFrom_append_newline (h : ∀ c ∈ s, isLineBreak c = false) (line t : List Char) :
    linesFrom line (s ++ '\n' :: t) = (line.reverse ++ s) :: linesFrom [] t := by
  induction s generalizing line with
  | nil => rw [List.nil_append, linesFrom_newline, List.append_nil]
  | cons c s ih =>
    rw [List.forall_mem_cons] at h
    have hreturn : c ≠ '\r' := by
      rintro rfl
      exact absurd h.1 (by decide)
    rw [List.cons_append, linesFrom.eq_3 line c _ fun _ hr => absurd hr hreturn, h.1, if_neg Bool.false_ne_true,
      ih h.2, List.reverse_cons, List.append_assoc, List.singleton_append]

/-- A line ends at the line feed behind it. -/
theorem lines_append_newline (h : ∀ c ∈ s, isLineBreak c = false) (t : List Char) :
    lines (s ++ '\n' :: t) = s :: lines t :=
  linesFrom_append_newline h [] t

theorem lines_flatMap {ls : List (List Char)} (h : ∀ l ∈ ls, ∀ c ∈ l, isLineBreak c = false) :
    lines (ls.flatMap fun l => l ++ ['\n']) = ls := by
  induction ls with
  | nil => rfl
  | cons l ls ih =>
    rw [List.forall_mem_cons] at h
    rw [List.flatMap_cons, List.append_assoc, List.singleton_append, lines_append_newline h.1, ih h.2]

end VersionedSite.Text
