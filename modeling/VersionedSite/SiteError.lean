import VersionedSite.Text.Quoted

/-!
# Errors of the site builder

Each error is named for its cause. A cause belongs to a kind, and the kind decides the code and the
status that callers see.

* `Kind.status_pos`: every kind has a status of the client's or the server's class.
-/

namespace VersionedSite

namespace SiteError

/-- The kinds of errors, by what callers can do about them. -/
inductive Kind where
  | general
  | invalidDestination
  | contentTooLarge
  | markupInvalid
  | nestedDocument
  | allocationFailed
  | composeUnavailable
  | rateLimited
  | persistenceFailed
  | notFound
  | forbidden
  deriving DecidableEq, Repr

/-- The stable code of a kind. -/
def Kind.code : Kind → String
  | general => "SITE_BUILDER_ERROR"
  | invalidDestination => "INVALID_DESTINATION"
  | contentTooLarge => "CONTENT_TOO_LARGE"
  | markupInvalid => "MARKUP_INVALID"
  | nestedDocument => "NESTED_DOCUMENT_IN_FRAGMENT"
  | allocationFailed => "REVISION_ALLOCATION_FAILED"
  | composeUnavailable => "COMPOSE_UNAVAILABLE"
  | rateLimited => "RATE_LIMITED"
  | persistenceFailed => "PERSISTENCE_FAILED"
  | notFound => "NOT_FOUND"
  | forbidden => "FORBIDDEN"

/-- The status that a kind is answered with. -/
def Kind.status : Kind → Nat
  | general => 500
  | invalidDestination => 400
  | contentTooLarge => 413
  | markupInvalid => 422
  | nestedDocument => 422
  | allocationFailed => 503
  | composeUnavailable => 503
  | rateLimited => 429
  | persistenceFailed => 503
  | notFound => 404
  | forbidden => 403

theorem Kind.status_pos (k : Kind) : 400 ≤ k.status ∧ k.status < 600 := by
  cases k <;> decide

end SiteError

/-- An error of the site builder. -/
inductive SiteError where
  /-- A user has used up the current window. -/
  | rateLimited (resetAt retryAfter : Int)
  /-- A destination was refused; it may hold halves of characters. -/
  | invalidDestination (raw : Text.Points)
  /-- A content is above the size limit. -/
  | contentTooLarge (reason : String)
  /-- A content is not what its destination needs. -/
  | markupInvalid (path : String) (details : List String)
  /-- A page or section brings a document root along. -/
  | nestedDocument (path : String)
  /-- Every attempt to allocate a revision met a conflict. -/
  | allocationFailed (project : String) (attempts : Int)
  /-- A valid file could not be written and is kept. -/
  | writeFailed (path : String)
  /-- There is no kept file to write again. -/
  | nothingPending (project : String)
  /-- A project has no revisions. -/
  | noRevisions (project : String)
  /-- A project belongs to somebody else. -/
  | foreignProject (project : String)
  /-- A revision has not been created yet. -/
  | noSuchRevision (requested : Int) (project : String) (latest : Int)
  /-- A revision has no entry. -/
  | nothingComposable (project : String) (revision : Int)
  /-- A revision has an entry that could not be composed. -/
  | previewUnavailable (revision : Int)
  /-- A path is not stored. -/
  | noSuchFile (path : String)
  /-- A revision is not one of a component site. -/
  | noComponentEntry (project : String) (revision : Int)
  /-- A browser module could not be built. -/
  | bundleUnavailable (revision : Int)
  /-- A revision has nothing to publish. -/
  | nothingToPublish (project : String) (revision : Int)
  /-- A project is not published. -/
  | notPublished (project : String)
  /-- No site is published under an id. -/
  | noSuchPublication
  /-- The store could not take a row. -/
  | storeFailed
  /-- A text that holds halves of characters cannot be written. -/
  | textBroken
  deriving DecidableEq, Repr

namespace SiteError

/-- The kind of an error. -/
def kind : SiteError → Kind
  | rateLimited .. => .rateLimited
  | invalidDestination _ => .invalidDestination
  | contentTooLarge _ => .contentTooLarge
  | markupInvalid .. => .markupInvalid
  | nestedDocument _ => .nestedDocument
  | allocationFailed .. => .allocationFailed
  | writeFailed _ => .persistenceFailed
  | nothingPending _ => .notFound
  | noRevisions _ => .notFound
  | foreignProject _ => .forbidden
  | noSuchRevision .. => .notFound
  | nothingComposable .. => .notFound
  | previewUnavailable _ => .composeUnavailable
  | noSuchFile _ => .notFound
  | noComponentEntry .. => .notFound
  | bundleUnavailable _ => .composeUnavailable
  | nothingToPublish .. => .notFound
  | notPublished _ => .notFound
  | noSuchPublication => .notFound
  | storeFailed => .general
  | textBroken => .general

/-- The reason that is told to the user. -/
def message : SiteError → String
  | rateLimited .. => "Too many generation requests, please wait before trying again"
  | invalidDestination raw =>
    "Invalid destination path: " ++ String.ofList (Text.quotedPoints raw)
  | contentTooLarge reason => reason
  | markupInvalid path _ => s!"Generated content for {path} is invalid"
  | nestedDocument path =>
    s!"{path} is embedded in another document and must not contain its own document root"
  | allocationFailed project attempts =>
    s!"Could not allocate a revision for project {project} after {attempts} attempts"
  | writeFailed path => s!"Could not save {path}; the generated content was kept and can be retried"
  | nothingPending project => s!"No pending save for project {project}"
  | noRevisions project => s!"No revisions for project {project}"
  | foreignProject project => s!"Project {project} belongs to another user"
  | noSuchRevision requested project latest =>
    s!"Revision {requested} does not exist for project {project} (latest is {latest})"
  | nothingComposable project revision =>
    s!"No composable content for project {project} at revision {revision}"
  | previewUnavailable revision =>
    s!"Preview for revision {revision} is not available right now"
  | noSuchFile path => s!"File not found: {path}"
  | noComponentEntry project revision =>
    s!"No component entry for project {project} at revision {revision}"
  | bundleUnavailable revision =>
    s!"Browser bundle for revision {revision} is not available right now"
  | nothingToPublish project revision =>
    s!"Nothing to publish for project {project} at revision {revision}"
  | notPublished project => s!"Project {project} is not published"
  | noSuchPublication => "Published site not found"
  | storeFailed => "The store could not take a row"
  | textBroken => "A text holds halves of characters"

/-- Whether an error is none that callers are told about. -/
def isInternal (e : SiteError) : Bool := e.kind = .general

/-- The details that go with an error. -/
def details : SiteError → List String
  | markupInvalid _ details => details
  | _ => []

end SiteError

end VersionedSite
