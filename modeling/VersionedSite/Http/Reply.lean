import VersionedSite.Document.Basic
import VersionedSite.Http.Route
import VersionedSite.Input.Reader
import VersionedSite.Service.Generation

/-!
# Replies

What a request is answered with: a status, the headers that matter, and a body. A JSON body is told by
its value, so that its text is left to whoever sends it.

* `status_ofError`: an error is answered with the status of its kind.
-/

namespace VersionedSite.Http

/-- The body of a reply. -/
inductive Content where
  | json (j : Json)
  | text (s : String)
  | nothing

/-- The answer to a request. -/
structure Reply where
  status : Nat
  /-- The headers, by their names in lower case. -/
  headers : List (String × String)
  content : Content

namespace Reply

/-- A JSON value. -/
def ofJson (j : Json) (status : Nat := 200) (headers : List (String × String) := []) : Reply :=
  { status, headers := ("content-type", "application/json") :: headers, content := .json j }

/-- A refusal in plain words. -/
def refusal (status : Nat) (detail : String) : Reply :=
  ofJson (.obj [("detail", .str detail)]) status

/-- One step on the way to a value. -/
def stepJson : Input.Step → Json
  | .member name => .str name
  | .element index => Json.nat index

/-- Where something is wrong and what. -/
def findingJson (f : Input.Finding) : Json := .arr [.arr (f.place.map stepJson), .str f.fault.name]

/-- A request whose handling broke down. -/
def breakdown : Reply :=
  { status := 500
    headers := [("content-type", "text/plain; charset=utf-8")]
    content := .text "Internal Server Error" }

/-- What is wrong with a request. -/
def ofFindings (found : List Input.Finding) : Reply :=
  ofJson (.obj [("detail", .arr (found.map findingJson))]) 422

/-- An error that callers are told about, with the wait that it asks for. -/
def ofRefusal (e : SiteError) : Reply :=
  let details := if e.details.isEmpty then [] else [("details", Json.strings e.details)]
  let (wait, headers) :=
    match e with
    | .rateLimited resetAt retryAfter =>
      ([("reset_at", Json.int resetAt)], [("retry-after", toString retryAfter)])
    | _ => ([], [])
  ofJson (.obj ([("error", .str e.message), ("code", .str e.kind.code)] ++ details ++ wait))
    e.kind.status headers

/-- An error. -/
def ofError (e : SiteError) : Reply := if e.isInternal then breakdown else ofRefusal e

/-- The headers of something that was made from a revision. -/
def madeAt (mediaType cache : String) (number : Int) : List (String × String) :=
  [("content-type", mediaType), ("cache-control", cache), ("x-revision-number", toString number)]

/-- What is not to be stored on the way. -/
def uncached : String := "no-store"

/-- What may be stored on the way for a minute. -/
def cachedBriefly : String := "public, max-age=60"

/-- A composed document. -/
def ofDocument (cache : String) (d : Document) : Reply :=
  let warned :=
    if d.degraded then [("x-compose-warnings", toString d.warnings.length)] else []
  { status := 200
    headers := madeAt d.mediaType cache d.revision ++ warned
    content := .text d.content }

/-- A page that belongs to a revision. -/
def ofPage (number : Int) (page : String) : Reply :=
  { status := 200
    headers := madeAt Document.pageType uncached number
    content := .text page }

/-- A request that is sent to another path. -/
def elsewhere : Reply := { status := 307, headers := [], content := .nothing }

/-! ## Values -/

/-- A file that was saved. -/
def ofSaved (s : Service.Saved) : Reply :=
  ofJson
    (.obj
      [("revision_id", Json.int s.revision.id), ("revision_number", Json.int s.revision.number),
       ("path", .str s.draft.path), ("role", .str s.draft.role), ("content", .str s.draft.content),
       ("fixes_applied", Json.strings s.draft.fixes)])
    201

/-- A stored file. -/
def fileJson (f : VisibleFile) : Json :=
  .obj
    [("path", .str f.path), ("role", .str f.role), ("content", .str f.content),
     ("revision_number", Json.int f.number)]

/-- A stored file without its content. -/
def summaryJson (f : VisibleFile) : Json :=
  .obj [("path", .str f.path), ("role", .str f.role), ("revision_number", Json.int f.number)]

/-- What to look at before a file is generated. -/
def ofContext (c : Service.Context) : Reply :=
  ofJson
    (.obj
      [("path", .str c.path), ("is_modification", .bool c.isModification),
       ("files", .arr (c.files.map fileJson))])

/-- The latest revision of a project. -/
def ofRevision (r : Revision) : Reply :=
  ofJson
    (.obj
      [("project_id", .str r.project), ("revision_id", Json.int r.id),
       ("revision_number", Json.int r.number), ("created_at", Json.int r.createdAt)])

/-- The files that are seen at a revision. -/
def ofListing (number : Int) (files : List VisibleFile) : Reply :=
  ofJson
    (.obj [("revision_number", Json.int number), ("files", .arr (files.map summaryJson))])

/-- A publication. -/
def ofPublication (p : Publication) : Reply :=
  ofJson
    (.obj
      [("public_id", .str p.publicId), ("project_id", .str p.project),
       ("revision_number", Json.int p.number), ("url", .str ("/api/published/" ++ p.publicId)),
       ("published_at", Json.int p.updatedAt)])

/-- That the service is up. -/
def health : Reply := ofJson (.obj [("status", .str "healthy")])

/-- What the service is. It goes by its default name, whatever is configured. -/
def about : Reply :=
  ofJson
    (.obj
      [("name", .str ({} : Settings).appName), ("version", .str "1.0.0"), ("docs", .str "/docs")])

/-- A page about the service itself. -/
def ofManual (page : Http.ManualPage) : Reply :=
  let title := ({} : Settings).appName
  match page with
  | .description =>
    ofJson (.obj
      [("openapi", .str "3.1.0"),
       ("info", .obj [("title", .str title), ("version", .str "1.0.0")]), ("paths", .obj [])])
  | _ =>
    { status := 200
      headers := [("content-type", Document.pageType)]
      content := .text s!"<!DOCTYPE html>\n<html>\n<head>\n<title>{title}</title>\n</head>\n</html>\n" }

/-- A reply without its content. -/
def headOnly (r : Reply) : Reply := { r with content := .nothing }

/-! ## Outcomes -/

/-- The reply to what succeeds or fails. -/
def ofExcept {α : Type} (f : α → Reply) : Except SiteError α → Reply
  | .ok a => f a
  | .error e => ofError e

theorem status_ofError (e : SiteError) : (ofError e).status = e.kind.status := by
  unfold ofError ofRefusal
  cases e <;> rfl

end Reply

end VersionedSite.Http
