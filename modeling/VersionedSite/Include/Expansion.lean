import VersionedSite.Distinct
import VersionedSite.Document.Basic
import VersionedSite.Include.Directive
import VersionedSite.Path.Basic

/-!
# Expanding include directives

The entry document is composed by replacing each directive with the expanded content of the path it
names, read at one fixed revision. A path that is refused, not stored or empty leaves a placeholder,
and so does one that is being expanded already. Past the depth limit a content stays as it is; past
the limit on includes a directive does.

* `compose_noEntry`: without an entry there is no document.
-/

namespace VersionedSite.Include

open Text

/-! ## Placeholders -/

/-- What stands in for content that cannot be included. -/
def missingPlaceholder (path : String) : String :=
  "<div class=\"mx-auto max-w-6xl px-4 py-8\">" ++
  "<div class=\"rounded-md border border-red-300 bg-red-50 p-4 text-sm text-red-800\">" ++
  "Missing include: <span class=\"font-mono\">" ++ escape path ++ "</span></div></div>"

/-- What stands in for content that is being included already. -/
def circularPlaceholder (path : String) : String :=
  "<div class=\"mx-auto max-w-6xl px-4 py-8\">" ++
  "<div class=\"rounded-md border border-amber-300 bg-amber-50 p-4 text-sm text-amber-900\">" ++
  "Circular include detected: <span class=\"font-mono\">" ++ escape path ++ "</span></div></div>"

/-! ## State of a composition -/

/-- How far a composition goes. -/
structure Limits where
  /-- The number of includes between the entry and any content. -/
  depth : Int := 10
  /-- The number of includes in all. -/
  includes : Int := 100

/-- What a composition complains about. -/
inductive Complaint where
  | depthReached (limit : Int)
  | includesReached (limit : Int)
  | refused (path : String)
  | circular (path : String)
  | missing (path : String)
  deriving DecidableEq, Repr

/-- The warning for a complaint. -/
def Complaint.message : Complaint → String
  | depthReached limit => s!"Include depth limit {limit} reached; directives left unresolved"
  | includesReached limit => s!"Include limit {limit} reached; directives left unresolved"
  | refused path => s!"Invalid include path: {path}"
  | circular path => s!"Circular include: {path}"
  | missing path => s!"Missing include: {path}"

/-- What a composition has seen so far. -/
structure Progress where
  /-- The number of includes that were followed. -/
  includes : Nat := 0
  /-- The complaints, each once. -/
  complaints : List Complaint := []
  /-- The paths that were read, in order. -/
  reads : List String := []

/-- One more complaint, unless it was made before. -/
def Progress.complain (p : Progress) (c : Complaint) : Progress :=
  { p with complaints := addNew p.complaints [c] }

/-- One more include that is followed. -/
def Progress.following (p : Progress) (path : String) : Progress :=
  { p with includes := p.includes + 1, reads := p.reads ++ [path] }

/-- The content of a path at the revision of the composition. -/
abbrev Reader := String → Option String

/-- The content of a path, if there is any. -/
def Reader.content? (read : Reader) (path : String) : Option String :=
  (read path).filter (· ≠ "")

/-! ## Expansion -/

/-- The answer to one directive inside the content of the last path of `chain`; `deeper` expands the
content of one more path. -/
def answer (read : Reader) (limits : Limits) (chain : List String)
    (deeper : List String → List Char → Progress → List Char × Progress)
    (d : Directive) (p : Progress) : List Char × Progress :=
  if (p.includes : Int) ≥ limits.includes then
    (d.text, p.complain (.includesReached limits.includes))
  else
    let written := String.ofList d.path
    match Path.normalize? .document written with
    | none => ((missingPlaceholder written).toList, p.complain (.refused written))
    | some path =>
      if path ∈ chain then ((circularPlaceholder path).toList, p.complain (.circular path))
      else
        match read.content? path with
        | none =>
          ((missingPlaceholder path).toList, (p.following path).complain (.missing path))
        | some content => deeper (chain ++ [path]) content.toList (p.following path)

/-- The pieces of a content put together again, with each directive answered in turn. The text so
far is in reverse. -/
def assemble (answerOne : Directive → Progress → List Char × Progress)
    (done : List Char × Progress) : Piece Directive → List Char × Progress
  | .char c => (c :: done.1, done.2)
  | .hit d =>
    let (text, p) := answerOne d done.2
    (text.reverse ++ done.1, p)

/-- The content of the last path of `chain` with its directives answered, through at most `levels`
further levels of content. -/
def expand (read : Reader) (limits : Limits) :
    (levels : Nat) → List String → List Char → Progress → List Char × Progress
  | 0, _, content, p => (content, p.complain (.depthReached limits.depth))
  | levels + 1, chain, content, p =>
    let (out, p) := (scan directive? content).foldl
      (assemble (answer read limits chain (expand read limits levels))) ([], p)
    (out.reverse, p)

/-- The outcome of a composition: the document, unless there is no entry, and the paths read. -/
structure Outcome where
  document : Option Document
  reads : List String

/-- Compose the document of an entry at a revision. -/
def compose (read : Reader) (revision : Int) (entry : String := Path.documentEntry)
    (limits : Limits := {}) : Outcome :=
  match read.content? entry with
  | none => { document := none, reads := [entry] }
  | some content =>
    let (out, p) := expand read limits (limits.depth + 1).toNat [entry] content.toList
      { reads := [entry] }
    { document := some
        { content := String.ofList out
          mediaType := Document.pageType
          revision
          warnings := p.complaints.map Complaint.message }
      reads := p.reads }

theorem compose_noEntry {read : Reader} {entry : String} (revision : Int) (limits : Limits)
    (h : read.content? entry = none) :
    compose read revision entry limits = { document := none, reads := [entry] } := by
  simp [compose, h]

end VersionedSite.Include
