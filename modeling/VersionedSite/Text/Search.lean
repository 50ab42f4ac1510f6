/-!
# Finding one text in another

* `after?_append`: what follows a text is found again.
* `eq_append_of_after?`: a text whose lead was cut off is that lead and the rest.
* `eq_append_of_breakOn?`: breaking at a text loses nothing.
-/

namespace VersionedSite.Text

/-- What follows `lead` in a text that starts with it. -/
def after? : (lead s : List Char) → Option (List Char)
  | [], s => some s
  | _ :: _, [] => none
  | l :: lead, c :: s => if c == l then after? lead s else none

@[simp] theorem after?_nil (s : List Char) : after? [] s = some s := by
  cases s <;> rfl

@[simp] theorem after?_append (lead s : List Char) : after? lead (lead ++ s) = some s := by
  induction lead with
  | nil => simp
  | cons l lead ih => simp [after?, ih]

theorem eq_append_of_after? {lead s rest : List Char} (h : after? lead s = some rest) :
    s = lead ++ rest := by
  induction lead generalizing s with
  | nil => simpa using h
  | cons l lead ih =>
    cases s with
    | nil => simp [after?] at h
    | cons c s =>
      by_cases hc : c = l
      · subst hc
        simp only [after?, BEq.rfl, ite_true] at h
        simp [ih h]
      · simp [after?, hc] at h

/-- The first place where `mark` stands: the text before it and the text after it. -/
def breakOn? (mark : List Char) : List Char → Option (List Char × List Char)
  | [] => if mark.isEmpty then some ([], []) else none
  | c :: s =>
    match after? mark (c :: s) with
    | some rest => some ([], rest)
    | none => (breakOn? mark s).map fun (before, rest) => (c :: before, rest)

theorem eq_append_of_breakOn? {mark s before rest : List Char}
    (h : breakOn? mark s = some (before, rest)) : s = before ++ mark ++ rest := by
  induction s generalizing before with
  | nil =>
    simp only [breakOn?] at h
    split at h
    · simp_all
    · simp at h
  | cons c s ih =>
    simp only [breakOn?] at h
    split at h
    · rename_i heq
      cases h
      simpa using eq_append_of_after? heq
    · obtain ⟨p, hp, he⟩ := Option.map_eq_some_iff.1 h
      cases he
      simpa using ih hp

/-- Whether `mark` stands anywhere in a text. -/
def mentions (mark s : List Char) : Bool := (breakOn? mark s).isSome

end VersionedSite.Text
