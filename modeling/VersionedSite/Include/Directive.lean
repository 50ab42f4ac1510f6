import VersionedSite.Text.Blank
import VersionedSite.Text.Caseless
import VersionedSite.Text.Scan
import VersionedSite.Text.Search

/-!
# Include directives

A directive is a comment of the form `<!-- include: path -->`, in any case and with blanks where
they stand here. The path is a run of characters that are not blank; when no blank separates it from
the end of the comment, it reaches up to the last end mark inside the run.

* `lastBreak?_eq`: breaking at the last mark loses nothing.
-/

namespace VersionedSite.Include

open Text

/-- A directive as it stands in a document. -/
structure Directive where
  /-- The whole comment. -/
  text : List Char
  /-- The path as written. -/
  path : List Char
  deriving DecidableEq, Repr

/-- The last place where `mark` stands in a text: what is before it and what is after it. -/
def lastBreak? (mark : List Char) : List Char → Option (List Char × List Char)
  | [] => none
  | c :: s =>
    match lastBreak? mark s with
    | some (before, after) => some (c :: before, after)
    | none => (after? mark (c :: s)).map fun after => ([], after)

theorem lastBreak?_eq {mark s before after : List Char}
    (h : lastBreak? mark s = some (before, after)) : s = before ++ mark ++ after := by
  induction s generalizing before with
  | nil => simp [lastBreak?] at h
  | cons c s ih =>
    simp only [lastBreak?] at h
    split at h
    · rename_i heq
      cases h
      simp [ih heq]
    · obtain ⟨a, ha, he⟩ := Option.map_eq_some_iff.1 h
      cases he
      simpa using eq_append_of_after? ha

/-- The mark that ends a comment. -/
def closing : List Char := "-->".toList

/-- The path of a directive at the head of what follows its keyword, and the text behind the
directive. -/
def directivePath? (s : List Char) : Option (List Char × List Char) :=
  match (trimStart s).span fun c => !isBlank c with
  | ([], _) => none
  | (first :: more, rest) =>
    match after? closing (trimStart rest) with
    | some behind => some (first :: more, behind)
    | none => (lastBreak? closing more).map fun (path, behind) => (first :: path, behind ++ rest)

/-- A directive at the head of a text. -/
def directive? : Recogniser Directive := fun s =>
  (after? "<!--".toList s).bind fun comment =>
    (afterCaseless? "include:".toList (trimStart comment)).bind directivePath? |>.map
      fun (path, rest) => ({ text := s.take (s.length - rest.length), path }, rest)

end VersionedSite.Include
