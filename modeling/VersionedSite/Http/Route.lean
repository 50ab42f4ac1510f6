import VersionedSite.Http.Address

/-!
# Routes

Which requests the service knows: the path and the method decide. A path that is known by other methods
only is told apart from one that is not known at all, and a path with a slash too many is sent to the
one without.

* `endpoints_ne_nil_of_found`: what is found is at the path.
-/

namespace VersionedSite.Http

/-- The pages about the service itself. -/
inductive ManualPage where
  /-- A page to try the service out. -/
  | trial
  /-- The page that a login comes back to. -/
  | loginReturn
  /-- A page to look things up. -/
  | reference
  /-- The description of the service for programs. -/
  | description
  deriving DecidableEq, Repr

/-- What a request is for, with the parts of the path that say so. -/
inductive Endpoint where
  | save (project : String)
  | retry (project : String)
  | context (project : String)
  | latest (project : String)
  | listing (project : String)
  | file (project : String)
  | preview (project number : String)
  | bundle (project number : String)
  | shell (project number : String)
  | publish
  | publication
  | published (publicId : String)
  | health
  | about
  | manual (page : ManualPage)
  deriving DecidableEq, Repr

namespace Endpoint

/-- A page about the service, which can also be asked for without its content. -/
def atPage (page : ManualPage) : List (String × Endpoint) :=
  [("GET", manual page), ("HEAD", manual page)]

/-- What is at a path that ends in a fixed word, with the methods it answers. -/
def atWord : List String → List (String × Endpoint)
  | ["", "api", "projects", project, "files"] => [("POST", save project)]
  | ["", "api", "projects", project, "files", "retry"] => [("POST", retry project)]
  | ["", "api", "projects", project, "context"] => [("GET", context project)]
  | ["", "api", "preview", project, "latest"] => [("GET", latest project)]
  | ["", "api", "preview", project, "code"] => [("GET", listing project)]
  | ["", "api", "preview", project, "code-file"] => [("GET", file project)]
  | ["", "api", "preview", project, number, "bundle"] => [("GET", bundle project number)]
  | ["", "api", "preview", project, number, "app"] => [("GET", shell project number)]
  | ["", "api", "publish"] => [("POST", publish), ("GET", publication)]
  | ["", "openapi.json"] => atPage .description
  | ["", "docs"] => atPage .trial
  | ["", "docs", "oauth2-redirect"] => atPage .loginReturn
  | ["", "redoc"] => atPage .reference
  | ["", "health"] => [("GET", health)]
  | ["", ""] => [("GET", about)]
  | _ => []

/-- What is at a path that ends in any text. -/
def atText : List String → List (String × Endpoint)
  | ["", "api", "preview", project, number] => [("GET", preview project number)]
  | ["", "api", "published", publicId] => [("GET", published publicId)]
  | _ => []

/-- The texts that stand in the path. -/
def texts : Endpoint → List String
  | save project => [project]
  | retry project => [project]
  | context project => [project]
  | latest project => [project]
  | listing project => [project]
  | file project => [project]
  | preview project number => [project, number]
  | bundle project number => [project, number]
  | shell project number => [project, number]
  | published publicId => [publicId]
  | publish => []
  | publication => []
  | health => []
  | about => []
  | manual _ => []

end Endpoint

/-- A text without the line feed that it ends in, if it does. -/
def withoutFeed (s : String) : String :=
  match s.toList.reverse with
  | '\n' :: rest => String.ofList rest.reverse
  | _ => s

/-- Steps with the last one taken as a word. -/
def wordLast : List String → List String
  | [] => []
  | [s] => [withoutFeed s]
  | s :: rest => s :: wordLast rest

/-- The steps of a path. -/
def stepsOf (path : String) : List String := (path.toList.splitOn '/').map String.ofList

/-- What is at a path, in the order of precedence. No text in a path is empty. -/
def endpoints (path : String) : List (String × Endpoint) :=
  let steps := stepsOf path
  (Endpoint.atWord (wordLast steps) ++ Endpoint.atText steps).filter fun e => e.2.texts.all (· ≠ "")

/-- A path without the slashes that it ends in. -/
def withoutSlashes (path : String) : String :=
  String.ofList (path.toList.reverse.dropWhile (· == '/')).reverse

/-- Where a request leads. -/
inductive Destined where
  | found (endpoint : Endpoint)
  | wrongMethod
  | elsewhere
  | unknown
  deriving DecidableEq, Repr

/-- Where a method leads at a path. -/
def route (method path : String) : Destined :=
  match (endpoints path).find? fun e => e.1 = method with
  | some e => .found e.2
  | none =>
    if endpoints path ≠ [] then .wrongMethod
    else if withoutSlashes path ≠ path ∧ endpoints (withoutSlashes path) ≠ [] then .elsewhere
    else .unknown

theorem endpoints_ne_nil_of_found {method path : String} {e : Endpoint}
    (h : route method path = .found e) : (method, e) ∈ endpoints path := by
  unfold route at h
  split at h
  · rename_i found heq
    cases h
    have hm := List.find?_some heq
    simp only [decide_eq_true_eq] at hm
    exact hm ▸ List.mem_of_find?_eq_some heq
  · split at h
    · cases h
    · split at h <;> cases h

end VersionedSite.Http
