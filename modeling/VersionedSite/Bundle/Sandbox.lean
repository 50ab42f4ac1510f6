import VersionedSite.Bundle.Process
import VersionedSite.Digest.Sha256
import VersionedSite.IdSupply

/-!
# Rendering in a sandbox

A compiled module is written to a file of its own, rendered from there, and taken away again however
the rendering went, unless files are to be kept. The file's name is drawn anew for each attempt.

* `length_safeName`: a project contributes at most 32 characters to a name.
* `isSafe_of_mem_safeName`: and none that means something in a path.
* `rendered_attempt`: what is rendered is the bundle.
-/

namespace VersionedSite.Bundle

/-- Whether a character may stand in the name of a file. -/
def isSafe (c : Char) : Bool := c.isAlphanum || c == '_' || c == '-'

/-- A project as a part of a name. -/
def safeName (project : List Char) : List Char :=
  (project.map fun c => if isSafe c then c else '_').take 32

/-- The name of the file for one attempt to render a project's bundle at a revision. -/
def moduleName (project : String) (revision : Int) (bundle id : String) : String :=
  let digest := Digest.hexText (Digest.sha256 (Text.Utf8.encode bundle.toList))
  "landing-" ++ String.ofList (safeName project.toList) ++ "-" ++ toString revision ++ "-" ++
    String.ofList (digest.take 12) ++ "-" ++ String.ofList (id.toList.take 8) ++ ".mjs"

/-- The files of the directory for modules, by name. -/
abbrev ModuleDirectory := OrderedMap String String

/-- What comes of an attempt to render. -/
structure Attempt where
  /-- The markup, or why there is none. -/
  result : Except Fault String
  /-- The name of the file that was rendered. -/
  name : String
  /-- What the file held while it was rendered. -/
  rendered : Option String
  /-- The directory afterwards. -/
  directory : ModuleDirectory
  ids : IdSupply

/-- Render a bundle from a file of its own. -/
def attempt (keep : Bool) (render : String → Except Fault String) (project : String) (revision : Int)
    (bundle : String) (directory : ModuleDirectory) (ids : IdSupply) : Attempt :=
  let (id, ids) := ids.draw
  let name := moduleName project revision bundle id
  let written := directory.insert name bundle
  let rendered := written.find? name
  { result := render (rendered.getD "")
    name
    rendered
    directory := if keep then written else written.erase name
    ids }

theorem length_safeName (project : List Char) : (safeName project).length ≤ 32 := by
  simp only [safeName, List.length_take]
  omega

theorem isSafe_of_mem_safeName {project : List Char} {c : Char} (h : c ∈ safeName project) :
    isSafe c = true := by
  obtain ⟨d, _, hd⟩ := List.mem_map.1 (List.mem_of_mem_take h)
  split at hd
  · simpa [← hd] using ‹isSafe d = true›
  · subst hd; decide

theorem rendered_attempt (keep : Bool) (render : String → Except Fault String) (project : String)
    (revision : Int) (bundle : String) (directory : ModuleDirectory) (ids : IdSupply) :
    (attempt keep render project revision bundle directory ids).rendered = some bundle := by
  simp [attempt]

end VersionedSite.Bundle
