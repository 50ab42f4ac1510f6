import VersionedSite.Text.Lowercase

/-!
# Keywords in any case

Directives and tag names are recognised in any mixture of cases. A keyword is written in lower-case
ASCII; besides their capitals, `i` also stands for the dotless small and the dotted capital letter,
`s` for the long s and `k` for the Kelvin sign.

* `afterCaseless?_append`: a keyword matches its own spelling.
-/

namespace VersionedSite.Text

/-- Whether `c` is a form of the lower-case keyword character `k`. -/
def caseless (k c : Char) : Bool :=
  c == k || c.toLower == k || (k == 'i' && (c == 'ı' || c == 'İ')) || (k == 's' && c == 'ſ') ||
    (k == 'k' && c == '\u212a')

@[simp] theorem caseless_self (k : Char) : caseless k k = true := by
  simp [caseless]

/-- The spelling of a keyword at the head of a text, and what follows it. -/
def spelled? : (keyword s : List Char) → Option (List Char × List Char)
  | [], s => some ([], s)
  | _ :: _, [] => none
  | k :: keyword, c :: s =>
    if caseless k c then (spelled? keyword s).map fun (w, rest) => (c :: w, rest) else none

/-- What follows a keyword, in whatever case it is spelled. -/
def afterCaseless? (keyword s : List Char) : Option (List Char) :=
  (spelled? keyword s).map Prod.snd

theorem spelled?_append (keyword s : List Char) :
    spelled? keyword (keyword ++ s) = some (keyword, s) := by
  induction keyword with
  | nil => cases s <;> rfl
  | cons k keyword ih => simp [spelled?, ih]

theorem afterCaseless?_append (keyword s : List Char) :
    afterCaseless? keyword (keyword ++ s) = some s := by
  simp [afterCaseless?, spelled?_append]

/-- What follows a text that repeats `word` up to the case of its letters. -/
def afterRepeat? : (word s : List Char) → Option (List Char)
  | [], s => some s
  | _ :: _, [] => none
  | w :: word, c :: s => if lowerOne c == lowerOne w then afterRepeat? word s else none

end VersionedSite.Text
