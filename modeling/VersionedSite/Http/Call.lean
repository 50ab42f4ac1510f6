import VersionedSite.Http.Body
import VersionedSite.Http.Route
import VersionedSite.Input.Collect

/-!
# Calls

A request that leads somewhere is read into a call: the texts of its path, the values of its query and
the members of its body. All that is wrong with them is told together, in this order.
-/

namespace VersionedSite.Http

open Input

/-- A request that was read. -/
inductive Call where
  | save (project destination content : String)
  /-- A save of texts some of which hold halves of characters. -/
  | saveRough (project : String) (destination content : Text.Points)
  | retry (project : String)
  | context (project path : String) (isModification : Bool)
  | latest (project : String)
  | listing (project : String) (revision : Option Int)
  | file (project path : String) (revision : Option Int)
  | preview (project : String) (number : Int)
  | bundle (project : String) (number : Int) (token : Option String)
  | shell (project : String) (number : Int)
  | publish (project : String) (number : Option Int)
  | publication (project : String)
  | published (publicId : String)
  | health
  | about
  | manual (page : ManualPage)
  deriving DecidableEq, Repr

/-- The greatest number of characters of a project's name. -/
def projectLimit : Nat := 32

/-- The name of a project. -/
def readProject : PlacedReader String := single (readShortText projectLimit)

namespace Call

/-- A text of the path. -/
def ofPath {α : Type} (name : String) (read : PlacedReader α) (default : α) (text : String) :
    Collect α :=
  .given [.member "path", .member name] read default (.str text)

/-- The project that the path names. -/
def projectOf (text : String) : Collect String := ofPath "project_id" readProject "" text

/-- The revision number that the path names. -/
def numberOf (text : String) : Collect Int := ofPath "revision_number" (single readInt) 0 text

/-- A value of the query that need not be there. -/
def ofQuery {α : Type} (address : Address) (name : String) (read : PlacedReader α) (default : α) :
    Collect α :=
  .optional [.member "query", .member name] read default ((address.lookup name).map .str)

/-- A value of the query that has to be there. -/
def needed {α : Type} (address : Address) (name : String) (read : PlacedReader α) (default : α) :
    Collect α :=
  .required [.member "query", .member name] read default ((address.lookup name).map .str)

/-- The revision number of the query, if there is one. -/
def revisionOf (address : Address) : Collect (Option Int) :=
  ofQuery address "revision" (single (nullable readInt)) none

/-- The members of the body. -/
def members (body : Body) (read : List (String × Json) → Collect Call) : Collect Call :=
  match body with
  | .value (.obj m) => read m
  | .value _ => do
    modify (· ++ [{ place := [.member "body"], fault := .objectKind }])
    return .health
  | .missing => do
    modify (· ++ [{ place := [.member "body"], fault := .missing }])
    return .health

/-- A member of the body that need not be there. -/
def optionalMember {α : Type} (m : List (String × Json)) (name : String) (read : PlacedReader α)
    (default : α) : Collect α :=
  .optional [.member "body", .member name] read default (Json.lookup name m)

/-- A member of the body that has to be there. -/
def requiredMember {α : Type} (m : List (String × Json)) (name : String) (read : PlacedReader α)
    (default : α) : Collect α :=
  .required [.member "body", .member name] read default (Json.lookup name m)

/-- A save of a content at a destination. -/
def saveOf (project : String) (destination content : Text.Points) : Call :=
  match destination.text?, content.text? with
  | some destination, some content => save project destination content
  | _, _ => saveRough project destination content

/-- The call for an endpoint, with what is wrong with it collected. -/
def collect (address : Address) (body : Body) : Endpoint → Collect Call
  | .save project => do
    let project ← projectOf project
    members body fun m => do
      let destination ← requiredMember m "destination" (single readPoints) []
      let content ← requiredMember m "content" (single readPoints) []
      let _ ← optionalMember m "is_modification" (single readBool) false
      return saveOf project destination content
  | .retry project => do
    let project ← projectOf project
    return retry project
  | .context project => do
    let project ← projectOf project
    let path ← needed address "path" (single readText) ""
    let isModification ← ofQuery address "is_modification" (single readBool) false
    return context project path isModification
  | .latest project => do
    let project ← projectOf project
    return latest project
  | .listing project => do
    let project ← projectOf project
    let revision ← revisionOf address
    return listing project revision
  | .file project => do
    let project ← projectOf project
    let path ← needed address "path" (single readText) ""
    let revision ← revisionOf address
    return file project path revision
  | .preview project number => do
    let project ← projectOf project
    let number ← numberOf number
    return preview project number
  | .bundle project number => do
    let project ← projectOf project
    let number ← numberOf number
    return bundle project number (address.lookup "token")
  | .shell project number => do
    let project ← projectOf project
    let number ← numberOf number
    return shell project number
  | .publish =>
    members body fun m => do
      let project ← requiredMember m "project_id" readProject ""
      let number ← optionalMember m "revision_number" (single (nullable readInt)) none
      return publish project number
  | .publication => do
    let project ← needed address "project_id" readProject ""
    return publication project
  | .published publicId => return published publicId
  | .health => return health
  | .about => return about
  | .manual page => return manual page

/-- The call for an endpoint, or everything that is wrong with it. -/
def read (address : Address) (body : Body) (endpoint : Endpoint) : Except (List Finding) Call :=
  (collect address body endpoint).finish

end Call

/-- What was found wrong with: the value itself, or of a value that is missing the object that should
hold it. The texts of path and query are left out. -/
def Body.subject? (body : Body) (f : Finding) : Option Json :=
  match body, f.place with
  | .value j, [.member "body"] => some j
  | .value j, [.member "body", .member name] => if f.fault = .missing then some j else j.member? name
  | _, _ => none

/-- Whether all that was found can be told, together with what it was found in. -/
def Body.canTell (body : Body) (found : List Finding) : Bool :=
  found.all fun f => (body.subject? f).all Json.isStandard

/-- Whether an endpoint takes a body. -/
def Endpoint.takesBody : Endpoint → Bool
  | save _ => true
  | publish => true
  | _ => false

/-- Whether an endpoint is only for those who say who they are. -/
def Endpoint.needsIdentity : Endpoint → Bool
  | bundle .. => false
  | published _ => false
  | health => false
  | about => false
  | manual _ => false
  | _ => true

end VersionedSite.Http
