import VersionedSite.SiteError
import VersionedSite.Store.Record

/-!
# Access to projects

A project belongs to whoever created its latest revision. Revisions are asked for by number; a number
that is not positive, or none, asks for the latest.

* `ownedLatest_eq_ok`: a project is open to its owner only.
* `numberFor_le`: what is resolved has been created.
-/

namespace VersionedSite.Service

/-- Why a project with a latest revision is closed to a user, if it is. A project without any is open
to everybody. -/
def denial? (latest : Option Revision) (project user : String) : Option SiteError :=
  match latest with
  | some r => if r.user = user then none else some (.foreignProject project)
  | none => none

/-- The latest revision of a project that belongs to a user. -/
def ownedLatest (store : Store) (project user : String) : Except SiteError Revision :=
  match store.latest? project with
  | none => .error (.noRevisions project)
  | some latest => if latest.user = user then .ok latest else .error (.foreignProject project)

/-- The number of the revision that is asked for. -/
def numberFor (requested : Option Int) (latest : Revision) : Except SiteError Int :=
  match requested with
  | none => .ok latest.number
  | some n =>
    if n ≤ 0 then .ok latest.number
    else if n > latest.number then .error (.noSuchRevision n latest.project latest.number)
    else .ok n

/-- The number of the revision that an owner asks for. -/
def ownedNumber (store : Store) (project user : String) (requested : Option Int) :
    Except SiteError Int := do
  let latest ← ownedLatest store project user
  numberFor requested latest

theorem ownedLatest_eq_ok {store : Store} {project user : String} {r : Revision} :
    ownedLatest store project user = .ok r ↔ store.latest? project = some r ∧ r.user = user := by
  unfold ownedLatest
  cases store.latest? project with
  | none => simp
  | some latest =>
    dsimp only
    split
    · rename_i h
      simp only [Except.ok.injEq, Option.some.injEq]
      exact ⟨fun he => ⟨he, he ▸ h⟩, fun he => he.1⟩
    · rename_i h
      simp only [reduceCtorEq, Option.some.injEq, false_iff, not_and]
      exact fun he hu => h (he ▸ hu)

theorem numberFor_le {requested : Option Int} {latest : Revision} {n : Int}
    (h : numberFor requested latest = .ok n) : n ≤ latest.number := by
  unfold numberFor at h
  split at h
  · cases h; exact Int.le_refl _
  · split at h
    · cases h; exact Int.le_refl _
    · split at h
      · cases h
      · cases h; omega

end VersionedSite.Service
