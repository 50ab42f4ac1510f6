import VersionedSite.Path.Basic

/-!
# Finding the stored path for a requested one

Stored paths are matched without regard to case. An exact match wins wherever it stands; after it
comes the first stored path that agrees up to the component extension, then the first `index` module
of the requested directory.

* `Candidates.step`: one stored path is looked at once and never again.
* `findMatch?_mem`: the answer is one of the stored paths.
-/

namespace VersionedSite.Imports

open Text

/-- A path in lower case. -/
def foldedPath (path : String) : List Char := lower path.toList

/-- A path without its component extension, in lower case. -/
def foldedBase (path : String) : List Char := lower (Path.withoutExtension path).toList

/-- What is remembered of the stored paths that were passed without an exact match. -/
structure Candidates where
  /-- The first one that agrees up to the extension. -/
  byBase : Option String := none
  /-- The first one that is the directory's `index` module. -/
  byIndex : Option String := none

/-- The candidates after one more stored path. -/
def Candidates.step (base : List Char) (found : Candidates) (path : String) : Candidates :=
  { byBase := found.byBase <|> if foldedBase path = base then some path else none
    byIndex := found.byIndex <|>
      if foldedBase path = base ++ "/index".toList then some path else none }

/-- The candidate that wins; a stored path without characters never does by its base. -/
def Candidates.best? (found : Candidates) : Option String :=
  match found.byBase with
  | some path => if path = "" then found.byIndex else some path
  | none => found.byIndex

/-- The match among the stored paths still to be looked at. -/
def matchFrom (request base : List Char) (found : Candidates) : List String → Option String
  | [] => found.best?
  | path :: rest =>
    if foldedPath path = request then some path
    else matchFrom request base (found.step base path) rest

/-- The stored path that stands for a requested one. -/
def findMatch? (requested : String) (stored : List String) : Option String :=
  matchFrom (foldedPath requested) (foldedBase requested) {} stored

theorem matchFrom_mem {request base : List Char} {found : Candidates} {stored all : List String}
    (hs : ∀ p ∈ stored, p ∈ all) (hb : ∀ p, found.byBase = some p → p ∈ all)
    (hi : ∀ p, found.byIndex = some p → p ∈ all) {path : String}
    (h : matchFrom request base found stored = some path) : path ∈ all := by
  induction stored generalizing found with
  | nil =>
    simp only [matchFrom, Candidates.best?] at h
    split at h
    · split at h
      · exact hi _ h
      · rename_i hbase _
        cases h
        exact hb _ hbase
    · exact hi _ h
  | cons p rest ih =>
    simp only [matchFrom] at h
    split at h
    · cases h
      exact hs _ (by simp)
    · refine ih (fun q hq => hs q (by simp [hq])) ?_ ?_ h
      · intro q hq
        simp only [Candidates.step] at hq
        cases hbase : found.byBase with
        | some r => simp [hbase] at hq; exact hq ▸ hb _ hbase
        | none => simp [hbase] at hq; exact hq.2 ▸ hs _ (by simp)
      · intro q hq
        simp only [Candidates.step] at hq
        cases hindex : found.byIndex with
        | some r => simp [hindex] at hq; exact hq ▸ hi _ hindex
        | none => simp [hindex] at hq; exact hq.2 ▸ hs _ (by simp)

theorem findMatch?_mem {requested path : String} {stored : List String}
    (h : findMatch? requested stored = some path) : path ∈ stored :=
  matchFrom_mem (fun _ hp => hp) (by simp) (by simp) h

end VersionedSite.Imports
