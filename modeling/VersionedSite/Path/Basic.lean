import VersionedSite.Text.Blank
import VersionedSite.Text.Lowercase

/-!
# Destination paths

Files of a site are named by paths relative to the project, with forward slashes. A path belongs to
one of two families, decided by its extension: documents (`.html`) and components (`.tsx`, `.ts`,
`.jsx`). `normalize?` brings a caller's spelling into canonical form or refuses it; nothing that
could leave the project tree is accepted.

* `normalize?_eq_some`: a canonical path is the tidied spelling, and it is admissible.
-/

namespace VersionedSite

/-! ## Families of files -/

/-- The family of files that a path belongs to. -/
inductive PathMode where
  | document
  | component
  deriving DecidableEq, Repr

namespace PathMode

/-- Both families, in the order in which they are tried. -/
def all : List PathMode := [.document, .component]

/-- The extensions of a family, in the order in which they are tried. -/
def extensions : PathMode → List String
  | document => [".html"]
  | component => [".tsx", ".ts", ".jsx"]

/-- The word for a family. -/
def name : PathMode → String
  | document => "document"
  | component => "component"

/-- Whether a text ends, in any case, in an extension of the family. -/
def admits (mode : PathMode) (path : List Char) : Bool :=
  mode.extensions.any fun ext => ext.toList.isSuffixOf (Text.lower path)

/-- The family of a caller's spelling, by its extension. -/
def infer? (raw : String) : Option PathMode :=
  all.find? fun mode => mode.admits (Text.trim raw.toList)

end PathMode

/-! ## Canonical paths -/

namespace Path

/-- The directory that holds a site. -/
def siteRoot : String := "landing"

/-- The entry of a site made of documents. -/
def documentEntry : String := "landing/index.html"

/-- The entry of a site made of components. -/
def componentEntry : String := "landing/index.tsx"

/-- Every backslash becomes a slash. -/
def forwardSlashes (path : List Char) : List Char :=
  path.map fun c => if c == '\\' then '/' else c

/-- Every run of slashes becomes one slash. -/
def collapseSlashes : List Char → List Char
  | '/' :: '/' :: rest => collapseSlashes ('/' :: rest)
  | c :: rest => c :: collapseSlashes rest
  | [] => []

/-- A path without the `./` it starts with, however often; runs of slashes are collapsed before. -/
def dropDotSlashes : List Char → List Char
  | '.' :: '/' :: rest => dropDotSlashes rest
  | path => path

/-- The spelling of a path that is judged: no blanks around it, forward slashes only, no doubled
slash and no leading `./`. -/
def tidy (raw : List Char) : List Char :=
  dropDotSlashes (collapseSlashes (forwardSlashes (Text.trim raw)))

/-- The parts of a path between its slashes. -/
def segments (path : List Char) : List (List Char) := path.splitOn '/'

/-- A segment that names a file or directory: not empty and neither `.` nor `..`. -/
def properSegment (segment : List Char) : Bool :=
  segment != [] && segment != ['.'] && segment != ['.', '.']

/-- A relative path of proper segments, without NUL, that ends in an extension of the family. -/
def admissible (mode : PathMode) (path : List Char) : Bool :=
  path != [] && path.head? != some '/' && !path.contains '\x00' &&
    (segments path).all properSegment && mode.admits path

/-- The canonical form of a caller's path, or nothing if the path is refused. -/
def normalize? (mode : PathMode) (raw : String) : Option String :=
  let path := tidy raw.toList
  if admissible mode path then some (String.ofList path) else none

theorem normalize?_eq_some {mode : PathMode} {raw path : String} :
    normalize? mode raw = some path ↔
      String.ofList (tidy raw.toList) = path ∧ admissible mode (tidy raw.toList) = true := by
  simp only [normalize?]
  split <;> simp_all

/-- Whether a path is in canonical form for its family already. -/
def isCanonical (mode : PathMode) (path : String) : Bool :=
  admissible mode path.toList

/-- A path without the first component extension that it ends in, in any case: as many characters
go as the extension has. -/
def withoutExtension (path : String) : String :=
  match PathMode.component.extensions.find? fun ext =>
      ext.toList.isSuffixOf (Text.lower path.toList) with
  | some ext => String.ofList (path.toList.take (path.length - ext.length))
  | none => path

end Path

/-! ## Roles -/

/-- The part a file plays in its site. -/
inductive Role where
  | layout
  | page
  | siteSection
  | other
  deriving DecidableEq, Repr

namespace Role

/-- The word for a role. -/
def name : Role → String
  | layout => "layout"
  | page => "page"
  | siteSection => "section"
  | other => "other"

/-- The segments of a path below the site's own directory. -/
def localSegments (path : String) : List (List Char) :=
  match Path.segments path.toList with
  | first :: rest => if first == Path.siteRoot.toList then rest else first :: rest
  | [] => []

/-- The role of a canonical path: the entries are the layout, what lies under `pages` or `sections`
is a page or a section. -/
def ofPath (path : String) : Role :=
  if path == Path.documentEntry || path == Path.componentEntry then layout
  else
    match localSegments path with
    | first :: _ :: _ =>
      if first == "pages".toList then page
      else if first == "sections".toList then siteSection
      else other
    | _ => other

/-- Pages and sections are embedded in other documents. -/
def isEmbedded (r : Role) : Bool := r == page || r == siteSection

/-- The layout carries the document's root. -/
def carriesRoot (r : Role) : Bool := r == layout

end Role

end VersionedSite
