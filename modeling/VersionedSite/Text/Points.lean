/-!
# Texts with halves of characters

A character beyond the first 65536 can be escaped as a pair of halves, each with a code point of its
own. A text that was written with such escapes may hold a half alone; it is no text of characters then
and is kept as its code points.

* `replaced_ofChars`: the code points of a text of characters lead back to it.
* `hasHalf_ofChars`: such a text holds no halves.
-/

namespace VersionedSite.Text

/-- Whether a code point is half of a pair. -/
def isHalf (n : Nat) : Bool := 0xd800 ≤ n && n ≤ 0xdfff

/-- A text as code points, which may be halves. -/
abbrev Points := List Nat

namespace Points

/-- The code points of a text. -/
def ofChars (s : List Char) : Points := s.map Char.toNat

/-- Whether halves are among the code points. -/
def hasHalf (p : Points) : Bool := p.any isHalf

/-- The characters of a text, with a replacement character for every half. -/
def replaced (p : Points) : List Char := p.map fun n => if isHalf n then '\ufffd' else Char.ofNat n

/-- The text of characters that code points are, if there are no halves among them. -/
def text? (p : Points) : Option String := if p.hasHalf then none else some (String.ofList p.replaced)

theorem isHalf_toNat (c : Char) : isHalf c.toNat = false := by
  simp only [isHalf, Bool.and_eq_false_iff, decide_eq_false_iff_not]
  rcases c.valid with h | ⟨h, _⟩
  · exact .inl (by have : c.toNat < 0xd800 := h; omega)
  · exact .inr (by have : 0xdfff < c.toNat := h; omega)

theorem replaced_ofChars (s : List Char) : replaced (ofChars s) = s := by
  simp [replaced, ofChars, isHalf_toNat, Function.comp_def]

theorem hasHalf_ofChars (s : List Char) : hasHalf (ofChars s) = false := by
  simp [hasHalf, ofChars, isHalf_toNat]

end Points

end VersionedSite.Text
