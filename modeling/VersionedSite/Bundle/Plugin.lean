import VersionedSite.Bundle.Package
import VersionedSite.Bundle.Request

/-!
# Serving a snapshot to the bundler

The bundler asks where a specifier leads and what a module holds. Project specifiers of project files
are answered from the request alone: by the resolution that the request gives them, or by a stand-in
with a warning. In a build for browsers the runtime packages are looked up on disk as well, when the
bundler itself does not find them.

* `loadProject_of_file`: a file of the request is loaded with its source.
-/

namespace VersionedSite.Bundle

/-- The space of project files. -/
def projectSpace : String := "project"

/-- The space of the module that mounts the site. -/
def mountSpace : String := "mount"

/-- The space of stand-ins. -/
def missingSpace : String := "missing"

/-- The specifier of the request's entry. -/
def entrySpecifier : String := "@entry"

/-- The specifier of the module that mounts the site. -/
def mountSpecifier : String := "@mount"

/-- The packages that a site runs on. -/
def runtimePackages : List String := ["react", "react-dom", "react-router-dom"]

/-- What the bundler asks about a specifier. -/
structure Question where
  path : String
  space : String
  importer : Option String := none
  directory : Option String := none
  kind : Option String := none
  /-- What an earlier question left for this one. -/
  note : Option Json := none

/-- Where a specifier leads. -/
inductive Resolution where
  /-- To a module that is answered for in a space. -/
  | inSpace (path space : String)
  /-- To a file on disk. -/
  | onDisk (path : String)
  /-- Nowhere. -/
  | failed (errors : List String)
  deriving DecidableEq, Repr

/-- A question put back to the bundler, which notes that it is the fallback's. -/
structure Inquiry where
  path : String
  kind : Option String
  importer : Option String
  directory : String
  deriving DecidableEq, Repr

/-- What comes of a question: the answer, unless it is left to others, the warnings, and what was asked
back. -/
structure Reply (α : Type) where
  answer : Except Breakdown (Option α)
  warnings : List String := []
  inquiries : List Inquiry := []

/-- A reply that is only an answer. -/
def Reply.of {α : Type} (a : Option α) : Reply α := { answer := .ok a }

/-! ## Specifiers -/

/-- Whether a specifier begins as one of the project. -/
def beginsAsProject : List Char → Bool
  | '.' :: '/' :: _ => true
  | '.' :: '.' :: '/' :: _ => true
  | '@' :: '/' :: _ => true
  | _ => false

/-- Whether a character ends a line of a script. -/
def endsScriptLine (c : Char) : Bool :=
  c == '\n' || c == '\r' || c == '\u2028' || c == '\u2029'

/-- Whether a specifier names a runtime package or something in one. -/
def namesRuntime (spec : List Char) : Bool :=
  runtimePackages.any fun p =>
    if p.toList.isPrefixOf spec then
      match spec.drop p.toList.length with
      | [] => true
      | c :: rest => c == '/' && !rest.any endsScriptLine
    else false

/-! ## Resolving -/

/-- The importer as it is written where there is none. -/
def Question.importerText (q : Question) : String := q.importer.getD "undefined"

/-- The path that a request resolves a question to. -/
def Request.resolution? (r : Request) (importer spec : String) : Option String :=
  ((r.resolutions.find? importer).bind (·.find? spec)).filter fun path =>
    path ≠ "" && r.files.contains path

/-- Where a project specifier of a project file leads. -/
def Request.resolveProject (r : Request) (importer spec : String) : Reply Resolution :=
  match r.resolution? importer spec with
  | some path => .of (some (.inSpace path projectSpace))
  | none =>
    { answer := .ok (some (.inSpace (importer ++ "::" ++ spec) missingSpace))
      warnings := [s!"Unresolved import '{spec}' in {importer} replaced with an empty module"] }

/-- Whether a note says that a question is the fallback's. -/
def isFallback (note : Option Json) : Bool :=
  match note.bind (·.member? "fallback") with
  | some v => isGiven v
  | none => false

/-- Where the bundler itself would go for a specifier. -/
abbrev Known := String → Option String

/-- Why the bundler does not find a specifier. -/
def notFound (spec : String) : String := "Could not resolve \"" ++ spec ++ "\""

/-- Where a specifier of a runtime package leads. -/
def resolveRuntime (i : Installation) (known : Known) (q : Question) : Reply Resolution :=
  if isFallback q.note then .of none
  else
    let inquiries :=
      [{ path := q.path, kind := q.kind, importer := q.importer
         directory := (q.directory.filter (· ≠ "")).getD i.root }]
    match known q.path with
    | some path => { answer := .ok (some (.onDisk path)), inquiries }
    | none =>
      { answer := (fromManifest i q.path).map fun
          | some path => some (.onDisk path)
          | none => some (.failed [notFound q.path])
        inquiries }

/-- Where a specifier leads. -/
def Request.resolve (r : Request) (i : Installation) (known : Known) (q : Question) :
    Reply Resolution :=
  if q.path = mountSpecifier then .of (some (.inSpace mountSpecifier mountSpace))
  else if q.path = entrySpecifier then .of (some (.inSpace r.entry projectSpace))
  else if beginsAsProject q.path.toList then
    if q.space = projectSpace then r.resolveProject q.importerText q.path else .of none
  else if r.target = .browser && namesRuntime q.path.toList then resolveRuntime i known q
  else .of none

/-! ## Loading -/

/-- What a module holds and how it is read. -/
structure Loaded where
  contents : Option Json
  loader : String
  /-- Where its own specifiers are looked up. -/
  directory : Option String := none

/-- How a project file is read, by the end of its path. -/
def loaderOf (path : String) : String :=
  if path.endsWith ".ts" then "ts" else if path.endsWith ".jsx" then "jsx" else "tsx"

/-- The module that mounts the entry in the page. -/
def mountSource : String :=
  "\n".intercalate
    ["import \x7b createElement \x7d from \"react\";",
     "import \x7b createRoot \x7d from \"react-dom/client\";",
     "import App from \"" ++ entrySpecifier ++ "\";",
     "const container = document.getElementById(\"root\");",
     "createRoot(container).render(createElement(App));",
     ""]

/-- The stand-in for a module that is missing. -/
def missingSource : String :=
  "module.exports = \x7b __esModule: true, default: function MissingModule() \x7b return null; \x7d \x7d;"

/-- The name that every object has a value for. -/
def inheritedName : String := "__proto__"

/-- What a project file holds. A path that is not in the request holds nothing, but for the one name
that every object has a value for. -/
def Request.contents (r : Request) (path : String) : Option Json :=
  match r.files.find? path with
  | some source => some (.str source)
  | none => if path = inheritedName then some (.obj []) else none

/-- A project file. -/
def Request.loadProject (r : Request) (i : Installation) (path : String) : Loaded :=
  { contents := r.contents path, loader := loaderOf path, directory := some i.root }

/-- What a module of a space holds. -/
def Request.load (r : Request) (i : Installation) (path space : String) : Option Loaded :=
  if space = mountSpace then
    some { contents := some (.str mountSource), loader := "tsx", directory := some i.root }
  else if space = projectSpace then some (r.loadProject i path)
  else if space = missingSpace then some { contents := some (.str missingSource), loader := "js" }
  else none

/-! ## Laws -/

theorem loadProject_of_file {r : Request} {i : Installation} {path source : String}
    (h : r.files.find? path = some source) :
    (r.loadProject i path).contents = some (.str source) := by
  simp [Request.loadProject, Request.contents, h]

end VersionedSite.Bundle
