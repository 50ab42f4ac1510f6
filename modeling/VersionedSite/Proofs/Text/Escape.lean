import VersionedSite.Text.Escape
import VersionedSite.Text.Scan

/-!
# Reading an escaped text back

An escaped text stands for the text that it was made from (`unescape_escape`).
-/

namespace VersionedSite.Text

/-- The references that stand for single characters, with what they stand for. -/
def references : List (List Char × Char) :=
  [("&amp;".toList, '&'), ("&lt;".toList, '<'), ("&gt;".toList, '>'), ("&quot;".toList, '"'),
   ("&#x27;".toList, '\'')]

/-- The character that the reference at the head of a text stands for. -/
def reference? : Recogniser Char := fun s =>
  references.findSome? fun e => (after? e.1 s).map fun rest => (e.2, rest)

/-- What an escaped text stands for. -/
def unescapeChars (s : List Char) : List Char :=
  (scan reference? s).map fun
    | .char c => c
    | .hit c => c

/-- What an escaped text stands for. -/
def unescape (s : String) : String := String.ofList (unescapeChars s.toList)

theorem reference?_of_ne {c : Char} (h : c ≠ '&') (s : List Char) : reference? (c :: s) = none := by
  simp [reference?, references, after?, h]

/-- A reference at the head of a text is taken for what it stands for, whatever stands behind it. -/
theorem reference?_append {e : List Char × Char} (he : e ∈ references) (s : List Char) :
    reference? (e.1 ++ s) = some (e.2, s) := by
  simp only [references, List.mem_cons, List.not_mem_nil, or_false] at he
  rcases he with rfl | rfl | rfl | rfl | rfl <;> rfl

theorem escapeChar_cases (c : Char) :
    (escapeChar c, c) ∈ references ∨ c ≠ '&' ∧ escapeChar c = [c] := by
  unfold escapeChar
  split
  case h_6 hamp _ _ _ _ => exact .inr ⟨hamp, rfl⟩
  all_goals exact .inl (by decide)

/-- A character is read back from what it was escaped as. -/
theorem unescapeChars_escapeChar_append (c : Char) (s : List Char) :
    unescapeChars (escapeChar c ++ s) = c :: unescapeChars s := by
  obtain href | ⟨hne, hplain⟩ := escapeChar_cases c
  · have hread := reference?_append href s
    obtain ⟨first, rest, hsplit⟩ : ∃ first rest, escapeChar c = first :: rest := by
      refine List.exists_cons_of_ne_nil fun he => ?_
      rw [he] at href
      exact absurd href (by simp [references])
    rw [hsplit, List.cons_append] at hread ⊢
    rw [unescapeChars, scan_cons_of_some hread (List.suffix_append rest s), List.map_cons,
      ← unescapeChars]
  · rw [hplain, List.singleton_append, unescapeChars, scan_cons_of_none (reference?_of_ne hne s),
      List.map_cons, ← unescapeChars]

theorem unescapeChars_escapeChars (s : List Char) : unescapeChars (escapeChars s) = s := by
  induction s with
  | nil => rfl
  | cons c s ih => rw [escapeChars, List.flatMap_cons, ← escapeChars, unescapeChars_escapeChar_append, ih]

theorem unescape_escape (s : String) : unescape (escape s) = s := by
  rw [unescape, escape, String.toList_ofList, unescapeChars_escapeChars, String.ofList_toList]

/-- No quoted attribute ends inside an escaped text. -/
theorem quote_not_mem_escapeChars (s : List Char) : '"' ∉ escapeChars s := by
  simp only [escapeChars, List.mem_flatMap, not_exists, not_and]
  intro c _
  unfold escapeChar
  split <;> simp_all [eq_comm]

end VersionedSite.Text
