/-!
# Escaping for markup

* `lt_not_mem_escape`: no tag can open in an escaped text.
-/

namespace VersionedSite.Text

/-- One character as it stands in markup text or in a quoted attribute. -/
def escapeChar : Char → List Char
  | '&' => "&amp;".toList
  | '<' => "&lt;".toList
  | '>' => "&gt;".toList
  | '"' => "&quot;".toList
  | '\'' => "&#x27;".toList
  | c => [c]

/-- A text as it stands in markup text or in a quoted attribute. -/
def escapeChars (s : List Char) : List Char := s.flatMap escapeChar

theorem lt_not_mem_escape (s : List Char) : '<' ∉ escapeChars s := by
  simp only [escapeChars, List.mem_flatMap, not_exists, not_and]
  intro c _
  unfold escapeChar
  split <;> simp_all [eq_comm]

/-- A text as it stands in markup text or in a quoted attribute. -/
def escape (s : String) : String := String.ofList (escapeChars s.toList)

end VersionedSite.Text
