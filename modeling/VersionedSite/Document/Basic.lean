import VersionedSite.Text.Escape

/-!
# Composed documents

What a composition hands out: the text, its media type, the revision it was composed at, and the
warnings that the composition left. Documents are never stored.

* `degraded_iff`: a document is degraded exactly when it carries a warning.
-/

namespace VersionedSite

/-- A composed artifact. -/
structure Document where
  /-- The text that is served. -/
  content : String
  /-- The media type that it is served with. -/
  mediaType : String
  /-- The revision that it was composed at. -/
  revision : Int
  /-- What went wrong on the way, each text once. -/
  warnings : List String := []
  deriving DecidableEq, Repr

namespace Document

/-- The media type of pages. -/
def pageType : String := "text/html; charset=utf-8"

/-- The media type of browser modules. -/
def moduleType : String := "application/javascript; charset=utf-8"

/-- Whether something went wrong on the way. -/
def degraded (d : Document) : Bool := !d.warnings.isEmpty

theorem degraded_iff {d : Document} : d.degraded = true ↔ d.warnings ≠ [] := by
  simp [degraded]

end Document

end VersionedSite
