import VersionedSite.Service.Access
import VersionedSite.Service.Composition

/-!
# Publishing

A publication pins a project at a revision behind a public id. Publishing again moves the pin and keeps
the id. A project has at most one publication, whoever made it.
-/

namespace VersionedSite.Service

/-- Pin a project at a revision, unless somebody else has published it. -/
def pin (service : Service) (now : Int) (project user : String) (number : Int) :
    Except WriteFault Publication × Service :=
  match service.store.publicationOf? project user with
  | some found =>
    if isDatable now then
      let (publication, store) := service.store.updatePublication now found number
      (.ok publication, { service with store })
    else (.error (.untimely true), service)
  | none =>
    let (publicId, ids) := service.ids.draw
    let service := { service with ids }
    if isDatable now then
      service.inserted (service.store.addPublication now publicId project user number)
    else (.error (.untimely false), service)

/-- The number at which an owner may publish a project. -/
def publishable (store : Store) (project user : String) (requested : Option Int) :
    Except SiteError Int := do
  let number ← ownedNumber store project user requested
  match flavour? store project number with
  | some _ => return number
  | none => throw (.nothingToPublish project number)

/-- The publication of a project by a user. -/
def publicationFor (store : Store) (project user : String) : Except SiteError Publication :=
  match store.publicationOf? project user with
  | some publication => .ok publication
  | none => .error (.notPublished project)

/-- The published document behind a public id. -/
def publishedDocument (settings : Settings) (tools : Toolchain) (service : Service)
    (publicId : String) : Except SiteError Document × Service :=
  match service.store.publication? publicId with
  | none => (.error .noSuchPublication, service)
  | some publication =>
    documentAt settings tools service publication.project publication.number

end VersionedSite.Service
