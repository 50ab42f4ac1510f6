import VersionedSite.Http.Call
import VersionedSite.Http.Reply
import VersionedSite.PreviewToken
import VersionedSite.Service.Publishing

/-!
# Exchanges

A request and its reply. A request is looked at in a fixed order: whether it leads anywhere, whether its
body is JSON, who sends it, what is wrong with its values; only then is anything done.
-/

namespace VersionedSite.Http

open Service

/-- A request. -/
structure Request where
  method : String
  /-- The path and query. -/
  target : String
  /-- Who sends it, as the header says. -/
  user : Option String
  /-- The text of the body. -/
  body : String

/-- What surrounds the handling of a request. -/
structure Surroundings where
  settings : Settings
  /-- What finds the facts about a markup text. -/
  read : Markup.OutlineReader
  tools : Toolchain
  /-- The time in milliseconds. -/
  now : Int
  /-- What befalls the steps of the handling. -/
  faults : Faults := {}

namespace Surroundings

/-- The time in seconds, in double precision. -/
def seconds (x : Surroundings) : Number := clockSeconds x.now

/-- Who signs tokens. -/
def signer (x : Surroundings) : TokenSigner :=
  .ofSecret x.settings.previewTokenSecret (.int x.settings.previewTokenTtlSeconds)

/-- The outcome of a program. -/
def run {α : Type} (x : Surroundings) (p : Program α) (service : Service) : α × Service :=
  let (a, _, service) := p.run (.ofSettings x.settings x.now) (x.faults.atTime x.now) service
  (a, service)

end Surroundings

/-- The user that a header names, if it is not blank. -/
def identity (header : Option String) : Option String :=
  let name := String.ofList (Text.trim (header.getD "").toList)
  if name = "" then none else some name

/-- The reply to who does not say who it is. -/
def unidentified : Reply := .refusal 401 "Missing X-User-Id header"

/-! ## Browser modules -/

/-- The path of the browser module of a project at a revision, as a part of an address: what would begin
a query or a fragment ends it, and characters that addresses never hold are left out. -/
def modulePath (project : String) (number : Int) : String :=
  let named := Text.substitute "\x7bproject_id\x7d".toList project.toList
    "/api/preview/\x7bproject_id\x7d/\x7brevision_number\x7d/bundle".toList
  let numbered := Text.substitute "\x7brevision_number\x7d".toList (toString number).toList named
  String.ofList ((numbered.takeWhile fun c => c ≠ '?' ∧ c ≠ '#').filter fun c =>
    c ≠ '\t' ∧ c ≠ '\n' ∧ c ≠ '\r')

/-- The reply with the page that loads the browser module of a project at a revision, in the name of a
user. -/
def shellPage (x : Surroundings) (project : String) (number : Int) (user : String) : Reply :=
  match x.signer.issue x.seconds project number user with
  | .ok token =>
    .ofPage number
      (Document.loaderPage (modulePath project number ++ "?token=" ++ token) x.settings.stylingCdnUrl)
  | .error _ => .breakdown

/-- The browser module that is asked for in somebody's name. Only users can own a project. -/
def moduleFor (x : Surroundings) (store : Store) (project : String) (number : Int) (viewer : Json) :
    Except SiteError Document :=
  match viewer, store.latest? project with
  | .str user, _ => do
    let n ← ownedNumber store project user (some number)
    bundleAt x.settings x.tools store project n
  | _, none => .error (.noRevisions project)
  | _, some _ => .error (.foreignProject project)

/-- The reply to who asks for a browser module without saying who it is. -/
def unknownViewer : Reply := .refusal 401 "Missing X-User-Id header or valid preview token"

/-- The reply to who asks for a browser module with a token, which stands in for a user. -/
def moduleByToken (x : Surroundings) (store : Store) (project : String) (number : Int)
    (token : Option String) : Reply :=
  match token.filter (· ≠ "") with
  | none => unknownViewer
  | some token =>
    match x.signer.verify x.seconds token project number with
    | .granted .null => unknownViewer
    | .granted viewer =>
      .ofExcept (.ofDocument Reply.uncached) (moduleFor x store project number viewer)
    | .refused => unknownViewer
    | .fault _ => .breakdown

/-! ## Stored files -/

/-- The stored file at a path that somebody writes in a way of their own. -/
def storedFile (store : Store) (project path : String) (number : Int) :
    Except SiteError VisibleFile :=
  match Destination.resolve path with
  | .error _ => .error (.noSuchFile path)
  | .ok d =>
    match store.contentAt project d.path number with
    | some f => .ok f
    | none => .error (.noSuchFile d.path)

/-- The context of a generation, for a project that has no history or is the user's own. -/
def ownedContext (store : Store) (project user path : String) (isModification : Bool) :
    Except SiteError Context :=
  match denial? (store.latest? project) project user with
  | some e => .error e
  | none => contextFor store project path isModification

/-! ## Handling -/

/-- The reply to a call of a user, and what it leaves of the service. -/
def answerFor (x : Surroundings) (user : String) (service : Service) : Call → Reply × Service
  | .save project destination content =>
    let (r, service) := x.run (saveOwned x.read x.settings project user destination content) service
    (.ofExcept .ofSaved r, service)
  | .saveRough project destination content =>
    let (r, service) := x.run (saveRough x.read x.settings project user destination content) service
    (.ofExcept .ofSaved r, service)
  | .retry project =>
    let (r, service) := x.run (retryFor x.settings project user) service
    (.ofExcept .ofSaved r, service)
  | .context project path isModification =>
    (.ofExcept .ofContext (ownedContext service.store project user path isModification), service)
  | .latest project => (.ofExcept .ofRevision (ownedLatest service.store project user), service)
  | .listing project revision =>
    (.ofExcept (fun number => .ofListing number (service.store.filesAt project number))
      (ownedNumber service.store project user revision), service)
  | .file project path revision =>
    (.ofExcept (fun f => .ofJson (Reply.fileJson f))
      ((ownedNumber service.store project user revision).bind
        (storedFile service.store project path)), service)
  | .preview project number =>
    match ownedNumber service.store project user (some number) with
    | .error e => (.ofError e, service)
    | .ok n =>
      let (r, service) := documentAt x.settings x.tools service project n
      (.ofExcept (.ofDocument Reply.uncached) r, service)
  | .bundle project number _ =>
    (.ofExcept (.ofDocument Reply.uncached) (moduleFor x service.store project number (.str user)),
      service)
  | .shell project number =>
    (.ofExcept (fun n => shellPage x project n user)
      (ownedNumber service.store project user (some number)), service)
  | .publish project number =>
    match publishable service.store project user number with
    | .error e => (.ofError e, service)
    | .ok n =>
      match service.pin x.now project user n with
      | (.ok publication, service) => (.ofPublication publication, service)
      | (.error _, service) => (.breakdown, service)
  | .publication project =>
    (.ofExcept .ofPublication (publicationFor service.store project user), service)
  | .published publicId =>
    let (r, service) := publishedDocument x.settings x.tools service publicId
    (.ofExcept (.ofDocument Reply.cachedBriefly) r, service)
  | .health => (.health, service)
  | .about => (.about, service)
  | .manual page => (.ofManual page, service)

/-- The reply to a call of nobody in particular, and what it leaves of the service. -/
def answerAnyone (x : Surroundings) (service : Service) : Call → Reply × Service
  | .bundle project number token => (moduleByToken x service.store project number token, service)
  | .published publicId =>
    let (r, service) := publishedDocument x.settings x.tools service publicId
    (.ofExcept (.ofDocument Reply.cachedBriefly) r, service)
  | .health => (.health, service)
  | .about => (.about, service)
  | .manual page => (.ofManual page, service)
  | _ => (unidentified, service)

/-- The reply to a call, and what it leaves of the service. -/
def answer (x : Surroundings) (user : Option String) (service : Service) (call : Call) :
    Reply × Service :=
  match user with
  | some user => answerFor x user service call
  | none => answerAnyone x service call

/-- The reply to what was found wrong with a request. -/
def correction (body : Body) (found : List Input.Finding) : Reply :=
  if body.canTell found then .ofFindings found else .breakdown

/-- The reply to a request for an endpoint, and what it leaves of the service. -/
def serve (x : Surroundings) (r : Request) (address : Address) (service : Service)
    (endpoint : Endpoint) : Reply × Service :=
  match if endpoint.takesBody then readBody r.body else .ok .missing with
  | .error .unreadable => (.refusal 400 "There was an error parsing the body", service)
  | .error (.malformed offset) =>
    (.ofFindings [{ place := [.member "body", .element offset], fault := .jsonText }], service)
  | .ok body =>
    let user := identity r.user
    if endpoint.needsIdentity && user.isNone then
      (unidentified, service)
    else
      match Call.read address body endpoint with
      | .error found => (correction body found, service)
      | .ok call => answer x user service call

/-- The whole reply to a request, and what it leaves of the service. -/
def respond (x : Surroundings) (r : Request) (service : Service) : Reply × Service :=
  let address := Address.ofText r.target
  match route r.method address.path with
  | .found endpoint => serve x r address service endpoint
  | .wrongMethod => (.refusal 405 "Method Not Allowed", service)
  | .elsewhere => (.elsewhere, service)
  | .unknown => (.refusal 404 "Not Found", service)

/-- The reply to a request, and what it leaves of the service. Who asks for the head of a reply only is
not sent its content. -/
def exchange (x : Surroundings) (r : Request) (service : Service) : Reply × Service :=
  let (reply, service) := respond x r service
  (if r.method = "HEAD" then reply.headOnly else reply, service)

end VersionedSite.Http
