import VersionedSite.Text.Blank
import VersionedSite.Text.Search

/-!
# Code fences

Generated text often comes wrapped in a fenced block. The opening line and the closing mark are
taken off when the text begins with three backticks.

* `unfence_of_not_fenced`: other texts are only trimmed.
-/

namespace VersionedSite.Markup

open Text

/-- The mark that opens and closes a fenced block. -/
def fence : List Char := "```".toList

/-- A text without the fence line that it begins with; a fence whose line does not end stays. -/
def withoutOpening (s : List Char) : List Char :=
  match (after? fence s).map fun info => info.dropWhile fun c => c != '\r' && c != '\n' with
  | some ('\r' :: '\n' :: rest) => rest
  | some ('\n' :: rest) => rest
  | _ => s

/-- A text that does not end in a line feed, without the fence on a line of its own that it ends
in. -/
def withoutClosing (s : List Char) : List Char :=
  match after? "```\n".toList s.reverse with
  | some ('\r' :: rest) => rest.reverse
  | some rest => rest.reverse
  | none => s

/-- A text without the backticks of a fence that it still ends in. -/
def withoutTrailing (s : List Char) : List Char :=
  match after? fence s.reverse with
  | some rest => rest.reverse
  | none => s

/-- A text taken out of its fences, and whether there were any to take off. -/
def unfence (s : List Char) : List Char × Bool :=
  let code := trim s
  if fence.isPrefixOf code then
    let bare := trim (withoutTrailing (withoutClosing (withoutOpening code)))
    (bare, bare != code)
  else (code, false)

theorem unfence_of_not_fenced {s : List Char} (h : fence.isPrefixOf (trim s) = false) :
    unfence s = (trim s, false) := by
  simp [unfence, h]

end VersionedSite.Markup
