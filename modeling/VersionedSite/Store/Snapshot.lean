import VersionedSite.OrderedMap
import VersionedSite.Store.Record

/-!
# Views of the store

What a project's files hold at a revision: of each path the version with the greatest revision number up
to the one asked for, of two in one revision the later. A version is seen only if its file and its
revision both belong to the project.

* `newest?_mem`: the newest row of some is one of them.
* `number_contentAt_le`: what is seen at a number is not younger.
-/

namespace VersionedSite

/-- A stored file as it is seen from a revision. -/
structure VisibleFile where
  path : String
  /-- The name of the role that the file has now. -/
  role : String
  content : String
  /-- The number of the revision that the content is of. -/
  number : Int
  deriving DecidableEq, Repr

namespace Store

/-- A version with its file and its revision. -/
structure Row where
  version : Version
  file : FileRecord
  revision : Revision
  deriving DecidableEq, Repr

/-- What is seen of a row. -/
def Row.visible (r : Row) : VisibleFile :=
  { path := r.file.path, role := r.file.role, content := r.version.content
    number := r.revision.number }

/-- The row of a version, if its file and its revision are there. -/
def row? (s : Store) (v : Version) : Option Row :=
  (s.files.find? fun f => f.id = v.file).bind fun file =>
    (s.revisions.find? fun r => r.id = v.revision).map fun revision =>
      { version := v, file, revision }

/-- The versions of a project's files, oldest first, with revisions of any project. -/
def rowsOfFiles (s : Store) (project : String) : List Row :=
  (s.versions.filterMap s.row?).filter fun r => r.file.project = project

/-- The versions of a project's files at its own revisions, oldest first. -/
def rows (s : Store) (project : String) : List Row :=
  (s.rowsOfFiles project).filter fun r => r.revision.project = project

/-- The row with the greatest number, the last of those that have it. -/
def newest? (rows : List Row) : Option Row :=
  rows.foldl
    (fun best r =>
      match best with
      | none => some r
      | some b => if b.revision.number ≤ r.revision.number then some r else some b)
    none

/-- A path of a project at a revision number. -/
def contentAt (s : Store) (project path : String) (number : Int) : Option VisibleFile :=
  (newest? ((s.rows project).filter fun r =>
    r.file.path = path ∧ r.revision.number ≤ number)).map Row.visible

/-- The greatest number among the rows of a file. -/
def greatestOf (rows : List Row) (file : Int) : Option Int :=
  ((rows.filter fun r => r.file.id = file).map fun r => r.revision.number).max?

/-- The files of a project in the order of their paths, each at the greatest number that its rows of
some sort have; `counts` picks the sort. -/
def newestPerPath (s : Store) (project : String) (counts : Row → Bool) : List VisibleFile :=
  let counted := (s.rowsOfFiles project).filter counts
  let shown := (s.rows project).filter fun r =>
    greatestOf counted r.file.id = some r.revision.number
  let inOrder := shown.mergeSort fun a b => decide (a.file.path ≤ b.file.path)
  (OrderedMap.ofList (inOrder.map fun r => (r.file.path, r.visible))).values

/-- All files of a project at a revision number. -/
def filesAt (s : Store) (project : String) (number : Int) : List VisibleFile :=
  s.newestPerPath project fun r => r.revision.number ≤ number

/-- All files of a project but the one at a path, as they are now. -/
def filesExcept (s : Store) (project path : String) : List VisibleFile :=
  s.newestPerPath project fun r => r.file.path ≠ path

/-! ## Laws -/

theorem newest?_mem {rows : List Row} {r : Row} (h : newest? rows = some r) : r ∈ rows := by
  have general : ∀ (l : List Row) (best : Option Row),
      l.foldl
        (fun best r =>
          match best with
          | none => some r
          | some b => if b.revision.number ≤ r.revision.number then some r else some b)
        best = some r → r ∈ l ∨ best = some r := by
    intro l
    induction l with
    | nil => intro best h; exact .inr h
    | cons a l ih =>
      intro best h
      rcases ih _ h with hm | hb
      · exact .inl (List.mem_cons_of_mem a hm)
      · cases best with
        | none =>
          cases hb
          exact .inl (List.mem_cons_self)
        | some b =>
          dsimp only at hb
          split at hb
          · cases hb
            exact .inl (List.mem_cons_self)
          · exact .inr hb
  rcases general rows none h with hm | hn
  · exact hm
  · cases hn

theorem number_contentAt_le {s : Store} {project path : String} {number : Int} {f : VisibleFile}
    (h : s.contentAt project path number = some f) : f.path = path ∧ f.number ≤ number := by
  obtain ⟨r, hr, rfl⟩ := Option.map_eq_some_iff.1 h
  have hm := newest?_mem hr
  simp only [List.mem_filter, decide_eq_true_eq] at hm
  exact hm.2

end Store

end VersionedSite
