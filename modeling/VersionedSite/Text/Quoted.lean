import VersionedSite.Text.Hex
import VersionedSite.Text.Points
import VersionedSite.Text.Printable

/-!
# Quoted text in messages

A text is quoted in a message between single quotes, or between double quotes when it holds single
ones and no double ones. The quote in use and the backslash are escaped, and so is every character
that does not show. Halves of characters do not show.

* `quotedPoints_ofChars`: a text of characters is quoted as one.
* `quoted_plain`: a text of plain letters and digits only gains its quotes.
-/

namespace VersionedSite.Text

/-- The quote that a text is put into. -/
def quoteFor (s : List Char) : Char :=
  if s.contains '\'' && !s.contains '"' then '"' else '\''

/-- One character between the quotes `q`. -/
def quotedChar (q c : Char) : List Char :=
  if c == q || c == '\\' then ['\\', c]
  else if c == '\t' then ['\\', 't']
  else if c == '\n' then ['\\', 'n']
  else if c == '\r' then ['\\', 'r']
  else if isPrintable c then [c]
  else if c.toNat < 0x100 then '\\' :: 'x' :: hex 2 c.toNat
  else if c.toNat < 0x10000 then '\\' :: 'u' :: hex 4 c.toNat
  else '\\' :: 'U' :: hex 8 c.toNat

/-- A text in quotes. -/
def quoted (s : List Char) : List Char :=
  let q := quoteFor s
  q :: (s.flatMap (quotedChar q) ++ [q])

/-- A text that may hold halves of characters, in quotes. -/
def quotedPoints (p : Points) : List Char :=
  let q := quoteFor p.replaced
  q :: (p.flatMap (fun n =>
    if isHalf n then '\\' :: 'u' :: hex 4 n else quotedChar q (Char.ofNat n)) ++ [q])

theorem quotedPoints_ofChars (s : List Char) : quotedPoints (Points.ofChars s) = quoted s := by
  simp only [quotedPoints, quoted, Points.replaced_ofChars]
  simp [Points.ofChars, List.flatMap_map, Points.isHalf_toNat]

theorem quoted_plain {s : List Char} (h : ∀ c ∈ s, quotedChar '\'' c = [c] ∧ c ≠ '\'') :
    quoted s = '\'' :: (s ++ ['\'']) := by
  have hq : quoteFor s = '\'' := by
    simp only [quoteFor, Bool.and_eq_true]
    split
    · rename_i hs
      exact absurd rfl (h '\'' (by simpa using hs.1)).2
    · rfl
  have hm : s.flatMap (quotedChar '\'') = s := by
    rw [List.flatMap_def, List.map_congr_left (fun c hc => (h c hc).1)]
    exact s.flatMap_singleton'
  simp [quoted, hq, hm]

end VersionedSite.Text
