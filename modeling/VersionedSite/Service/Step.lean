import VersionedSite.Bundle.Sandbox
import VersionedSite.PendingSaves
import VersionedSite.Quota.Limiter
import VersionedSite.Settings
import VersionedSite.Store.Record

/-!
# Steps of the service

Everything that several calls share stands in one state, which a call touches by single steps: steps of
other calls may come in between, but none is ever seen half done. What may befall a step from outside is
stated as a disturbance; a step that is disturbed changes nothing.
-/

namespace VersionedSite

/-- What all calls share. -/
structure Service where
  store : Store := {}
  limiter : Quota.Limiter
  pending : PendingSaves := .empty
  /-- The directory that modules are rendered from, once it is there. -/
  modules : Option Bundle.ModuleDirectory := none
  ids : IdSupply

namespace Service

/-- The service as it starts. -/
def start (settings : Settings) (ids : IdSupply) : Service :=
  { limiter :=
      match settings.rateLimitBackend with
      | .memory => .inProcess .empty
      | .redis => .shared {}
    ids }

/-- What a step needs to know: the time and the terms that were configured. -/
structure Terms where
  /-- The time in milliseconds. -/
  now : Int
  quota : Quota.Terms
  /-- For how long a pending save is kept. -/
  pendingExpiry : Expiry

/-- The configured terms at a time. -/
def Terms.ofSettings (settings : Settings) (now : Int) : Terms :=
  { now
    quota := .ofSeconds settings.rateLimitWindowSeconds settings.rateLimitMaxRequests
    pendingExpiry := .inSeconds (.int settings.pendingSaveTtlSeconds) }

/-- Why a write did not take place. -/
inductive WriteFault where
  /-- Another row has its place. -/
  | taken
  /-- The store broke down over it. -/
  | broken
  /-- The clock shows a time that no row can hold; `changing` tells whether a row was to be changed. -/
  | untimely (changing : Bool)
  deriving DecidableEq, Repr

/-- One step. -/
inductive Step where
  /-- Count a call of a user. -/
  | countCall (user : String)
  /-- Read the latest revision of a project. -/
  | readLatest (project : String)
  /-- Read the number that follows the greatest one of a project. -/
  | readNextNumber (project : String)
  /-- Insert a revision. -/
  | insertRevision (project : String) (number : Int) (user : String)
  /-- Look for the file of a project at a path. -/
  | findFile (project path : String)
  /-- Insert a file. -/
  | insertFile (project path role : String)
  /-- Give a file that was found a role. -/
  | updateFile (file : FileRecord) (role : String)
  /-- Insert a version of a file at a revision. -/
  | insertVersion (file revision : Int) (content : String)
  /-- Look for the pending save of a user on a project. -/
  | findPending (user project : String)
  /-- Keep a draft as the pending save of a user on a project. -/
  | keepPending (user project : String) (draft : FileDraft)
  /-- Forget the pending save of a user on a project. -/
  | forgetPending (user project : String)
  deriving DecidableEq, Repr

/-- The kind of a step's answer. -/
@[reducible] def Step.Answer : Step → Type
  | countCall _ => Quota.Decision × Int
  | readLatest _ => Option Revision
  | readNextNumber _ => Int
  | insertRevision .. => Except WriteFault Revision
  | findFile .. => Except WriteFault (Option FileRecord)
  | insertFile .. => Except WriteFault FileRecord
  | updateFile .. => Except WriteFault FileRecord
  | insertVersion .. => Except WriteFault Version
  | findPending .. => Option PendingSave
  | keepPending .. => Unit
  | forgetPending .. => Unit

/-- Whether a step writes a row, and with it the time. -/
def Step.isWrite : Step → Bool
  | insertRevision .. | insertFile .. | updateFile .. | insertVersion .. => true
  | _ => false

/-- What may befall a step. -/
inductive Disturbance where
  /-- A number is read that was next some time ago. -/
  | outdated (number : Int)
  /-- A file that is there is not found. -/
  | overlooked
  /-- The store breaks down. -/
  | broken
  /-- The clock shows a time that no row can hold. -/
  | untimely
  deriving DecidableEq, Repr

/-- Whether an insertion took place. -/
def inserted {α : Type} (service : Service) : Option (α × Store) → Except WriteFault α × Service
  | some (row, store) => (.ok row, { service with store })
  | none => (.error .taken, service)

/-- What a step answers and does, with what befalls it. -/
def perform (terms : Terms) (disturbance : Option Disturbance) (service : Service) :
    (step : Step) → step.Answer × Service
  | .countCall user =>
    let (decision, limiter) := service.limiter.check terms.quota terms.now user
    ((decision, terms.now), { service with limiter })
  | .readLatest project => (service.store.latest? project, service)
  | .readNextNumber project =>
    match disturbance with
    | some (.outdated number) => (number, service)
    | _ => (service.store.greatest project + 1, service)
  | .insertRevision project number user =>
    match disturbance with
    | some .untimely => (.error (.untimely false), service)
    | _ => service.inserted (service.store.addRevision terms.now project number user)
  | .findFile project path =>
    match disturbance with
    | some .broken => (.error .broken, service)
    | some .overlooked => (.ok none, service)
    | _ => (.ok (service.store.file? project path), service)
  | .insertFile project path role =>
    match disturbance with
    | some .broken => (.error .broken, service)
    | some .untimely => (.error (.untimely false), service)
    | _ => service.inserted (service.store.addFile terms.now project path role)
  | .updateFile file role =>
    match disturbance with
    | some .broken => (.error .broken, service)
    | some .untimely => (.error (.untimely true), service)
    | _ =>
      let (file, store) := service.store.updateFile terms.now file role
      (.ok file, { service with store })
  | .insertVersion file revision content =>
    match disturbance with
    | some .broken => (.error .broken, service)
    | some .untimely => (.error (.untimely false), service)
    | _ =>
      let (version, store) := service.store.addVersion terms.now file revision content
      (.ok version, { service with store })
  | .findPending user project =>
    let (found, pending) := service.pending.get terms.pendingExpiry terms.now user project
    (found, { service with pending })
  | .keepPending user project draft =>
    ((), { service with pending := service.pending.put user project { draft with since := terms.now } })
  | .forgetPending user project =>
    ((), { service with pending := service.pending.discard user project })

end Service

end VersionedSite
