import VersionedSite.Markup.Validation
import VersionedSite.Proofs.Text.Trim

/-!
# Content that passes

A text that passes its validation is there, has no blank at an end and has none of the defects that were
looked for, whether it passed as it was or after its repair (`validateMarkup_fit`,
`validateComponent_fit`). It is the outcome that has been checked: every repair keeps a text bare
(`bare_repair`), and nothing passes that is empty.
-/

namespace VersionedSite.Markup

open Text

variable {read : OutlineReader} {code raw : List Char} {structure_ : Structure} {limit : Int}

theorem precheck_invalid {v : Validation} (h : precheck raw limit = some v) : v.isValid = false := by
  unfold precheck at h
  split at h
  · cases h
    rfl
  · split at h <;> cases h
    rfl

theorem bare_unfence (raw : List Char) : Bare (unfence raw).1 := by
  unfold unfence
  dsimp only
  split <;> exact bare_trim _

/-! ## Repairs -/

theorem bare_endTag (name : List Char) : Bare (endTag name) :=
  (bare_singleton (by decide)).append_left (List.cons_ne_nil _ _) (by decide) ('/' :: name)

theorem bare_closeOpen (h : Bare code) : Bare (closeOpen code).1 := by
  unfold closeOpen
  split
  · exact h
  · refine h.append (bare_flatten fun part hp => ?_)
    obtain ⟨name, -, rfl⟩ := List.mem_map.1 hp
    exact bare_endTag name

theorem bare_wrapRoot (h : Bare code) : Bare (wrapRoot code).1 := by
  unfold wrapRoot
  split
  · exact h
  · have hend : "\n</html>".toList = "\n</html".toList ++ ['>'] := rfl
    rw [hend, ← List.append_assoc]
    exact (bare_singleton (by decide)).append_left (List.cons_ne_nil _ _) (by decide) _

theorem wrapRoot_ne_nil (code : List Char) : (wrapRoot code).1 ≠ [] := by
  unfold wrapRoot
  split
  · rintro rfl
    rename_i h
    cases h
  · exact List.cons_ne_nil _ _

theorem bare_addDoctype (h : Bare code) (hne : code ≠ []) : Bare (addDoctype code).1 := by
  unfold addDoctype
  split
  · exact h
  · exact h.append_left hne (by decide) _

/-- The parts of a document's repair, one behind the other. -/
theorem repair_document (code : List Char) :
    repair code .document =
      ((addDoctype (wrapRoot (closeOpen code).1).1).1,
        (closeOpen code).2 ++ (wrapRoot (closeOpen code).1).2 ++
          (addDoctype (wrapRoot (closeOpen code).1).1).2) := by
  rw [repair]

theorem bare_repair (h : Bare code) (structure_ : Structure) : Bare (repair code structure_).1 := by
  cases structure_ with
  | fragment => exact bare_closeOpen h
  | document =>
    rw [repair_document]
    exact bare_addDoctype (bare_wrapRoot (bare_closeOpen h)) (wrapRoot_ne_nil _)

/-! ## Outcomes -/

/-- Whether a reader finds no element and no text where there is nothing. -/
def OutlineReader.VacantAtNil (read : OutlineReader) : Prop :=
  ∀ o, read [] = .ok o → o.isVacant = true

theorem vacantAtNil_ofMarkup : OutlineReader.VacantAtNil Outline.ofMarkup := by
  rintro o ⟨⟩
  decide

theorem Outline.has_of_isVacant {o : Outline} (h : o.isVacant = true) (name : String) :
    o.has name = false := by
  rw [isVacant, Bool.and_eq_true, List.isEmpty_iff] at h
  rw [has, h.1]
  rfl

/-- An empty text has what neither structure may have. -/
theorem ne_nil_of_defectsOf (hread : read.VacantAtNil) (h : defectsOf read code structure_ = []) :
    code ≠ [] := by
  rintro rfl
  unfold defectsOf at h
  cases ho : read [] with
  | error why =>
    rw [ho] at h
    cases h
  | ok o =>
    rw [ho] at h
    cases structure_ with
    | fragment => cases h
    | document =>
      have hlacks : ∀ name, o.has name = false := Outline.has_of_isVacant (hread o ho)
      simp [documentDefects, hlacks] at h

theorem validateMarkup_fit (hread : read.VacantAtNil) {v : Validation}
    (hv : validateMarkup read raw structure_ limit = v) (h : v.isValid = true) :
    v.code ≠ [] ∧ Bare v.code ∧ defectsOf read v.code structure_ = [] := by
  unfold validateMarkup at hv
  split at hv
  · rename_i hrefused
    cases (precheck_invalid hrefused).symm.trans (hv ▸ h)
  · dsimp only at hv
    split at hv <;> subst hv <;> have hnone := Validation.isValid_iff.1 h
    · exact ⟨ne_nil_of_defectsOf hread hnone, bare_unfence raw, hnone⟩
    · exact ⟨ne_nil_of_defectsOf hread hnone, bare_repair (bare_unfence raw) structure_, hnone⟩

theorem componentDefects_eq_nil :
    componentDefects code structure_ = [] ↔ code ≠ [] ∧
      match structure_ with
      | .fragment => anywhere rootElement? code = false
      | .document => exportsDefault none code = true := by
  cases structure_ <;> cases code <;> simp [componentDefects]

theorem validateComponent_fit {v : Validation} (hv : validateComponent raw structure_ limit = v)
    (h : v.isValid = true) :
    v.code ≠ [] ∧ Bare v.code ∧ componentDefects v.code structure_ = [] := by
  unfold validateComponent at hv
  split at hv
  · rename_i hrefused
    cases (precheck_invalid hrefused).symm.trans (hv ▸ h)
  · subst hv
    have hnone := Validation.isValid_iff.1 h
    exact ⟨(componentDefects_eq_nil.1 hnone).1, bare_unfence raw, hnone⟩

end VersionedSite.Markup
