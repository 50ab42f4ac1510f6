import VersionedSite.Imports.Graph
import VersionedSite.Json.Value

/-!
# Build requests

What a bundler is given: the files of an import graph with their resolved imports. Nothing else of a
project is ever read.

* `Target.name_ofName`: a target is known by its name.
-/

namespace VersionedSite.Bundle

/-- What a bundle is for. -/
inductive Target where
  /-- For rendering markup ahead of time. -/
  | server
  /-- For mounting the site in a browser. -/
  | browser
  /-- A target that has no rules of its own. -/
  | named (name : String)
  deriving DecidableEq, Repr

namespace Target

/-- The name of a target. -/
def name : Target → String
  | server => "server"
  | browser => "browser"
  | named name => name

/-- The target with a name. -/
def ofName (name : String) : Target :=
  if name = "server" then server else if name = "browser" then browser else named name

theorem name_ofName (name : String) : (ofName name).name = name := by
  unfold ofName
  split
  · simp [Target.name, *]
  · split
    · simp [Target.name, *]
    · rfl

end Target

/-- The sources and resolved imports to bundle. -/
structure Request where
  target : Target
  /-- The path of the file to begin with. -/
  entry : String
  /-- The source of each path. -/
  files : OrderedMap String String
  /-- For each importer its specifiers with the paths they lead to. -/
  resolutions : OrderedMap String (OrderedMap String String)
  deriving DecidableEq, Repr

namespace Request

/-- The request for the files of a graph. -/
def ofGraph (target : Target) (g : ImportGraph) : Request :=
  { target, entry := g.entry, files := g.files, resolutions := g.resolutions }

/-- A map of texts as a JSON object. -/
def texts (m : OrderedMap String String) : Json := .obj (m.entries.map fun e => (e.1, .str e.2))

/-- The request as it is sent. -/
def payload (r : Request) : Json :=
  .obj
    [("target", .str r.target.name),
     ("entryPath", .str r.entry),
     ("files", texts r.files),
     ("resolutions", .obj (r.resolutions.entries.map fun e => (e.1, texts e.2)))]

/-- The text of the request. -/
def text (r : Request) : String := r.payload.render Json.spaced

end Request

/-- What a bundler gives back. -/
structure Output where
  code : String
  warnings : List String
  deriving DecidableEq, Repr

end VersionedSite.Bundle
