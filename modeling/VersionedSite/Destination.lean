import VersionedSite.Markup.Validation
import VersionedSite.Path.Basic
import VersionedSite.SiteError

/-!
# Destinations

Where a generated file goes and what it has to be for that. A destination is a canonical path with
its family; the path's role says whether the content is a document or a fragment of one.

* `resolve_eq_ok`: a resolved destination is the canonical form of what was asked for.
* `accept_eq_ok`: admitted content has passed its validation.
-/

namespace VersionedSite

/-- A canonical path and the family that it belongs to. -/
structure Destination where
  path : String
  mode : PathMode
  deriving DecidableEq, Repr

namespace Destination

/-- The role of the file. -/
def role (d : Destination) : Role := .ofPath d.path

/-- The destination that a caller's path names. -/
def resolve (raw : String) : Except SiteError Destination :=
  match (PathMode.infer? raw).bind fun mode =>
      (Path.normalize? mode raw).map fun path => ({ path, mode } : Destination) with
  | some d => .ok d
  | none => .error (.invalidDestination (.ofChars raw.toList))

theorem resolve_eq_ok {raw : String} {d : Destination} :
    resolve raw = .ok d ↔
      PathMode.infer? raw = some d.mode ∧ Path.normalize? d.mode raw = some d.path := by
  unfold resolve
  constructor
  · intro h
    split at h
    · rename_i found heq
      cases h
      obtain ⟨mode, hm, hd⟩ := Option.bind_eq_some_iff.1 heq
      obtain ⟨path, hp, rfl⟩ := Option.map_eq_some_iff.1 hd
      exact ⟨hm, hp⟩
    · cases h
  · rintro ⟨hm, hp⟩
    simp [hm, hp]

/-- The layout is a document, everything else is embedded in one. -/
def structureFor (r : Role) : Markup.Structure :=
  if r.carriesRoot then .document else .fragment

/-- The validation that a family and a role ask for. -/
def validate (read : Markup.OutlineReader) (content : String) (mode : PathMode) (role : Role)
    (limit : Int) : Markup.Validation :=
  match mode with
  | .document => Markup.validateMarkup read content.toList (structureFor role) limit
  | .component => Markup.validateComponent content.toList (structureFor role) limit

/-- The error of a failed validation, the first that applies: too large, a document root inside a
fragment, anything else. -/
def errorOf (path : String) (v : Markup.Validation) : SiteError :=
  let messages := v.defects.map Markup.Defect.message
  if v.isTooLarge then .contentTooLarge (messages.headD "Content too large")
  else if v.hasNestedRoot then .nestedDocument path
  else .markupInvalid path messages

/-- Content that has passed its validation. -/
structure Accepted where
  path : String
  role : Role
  content : String
  fixes : List String
  deriving DecidableEq, Repr

/-- Validate content for a destination. -/
def accept (read : Markup.OutlineReader) (d : Destination) (content : String) (limit : Int) :
    Except SiteError Accepted :=
  let v := validate read content d.mode d.role limit
  if v.isValid then
    .ok
      { path := d.path, role := d.role, content := String.ofList v.code
        fixes := v.fixes.map Markup.Fix.message }
  else .error (errorOf d.path v)

theorem accept_eq_ok {read : Markup.OutlineReader} {d : Destination} {content : String} {limit : Int}
    {a : Accepted} (h : accept read d content limit = .ok a) :
    (validate read content d.mode d.role limit).isValid = true ∧ a.path = d.path ∧
      a.role = d.role := by
  unfold accept at h
  dsimp only at h
  split at h
  · rename_i hv
    cases h
    exact ⟨hv, rfl, rfl⟩
  · cases h

end Destination

end VersionedSite
