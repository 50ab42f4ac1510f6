import VersionedSite.Destination
import VersionedSite.Markup.Outline
import VersionedSite.Service.Access
import VersionedSite.Service.Program
import VersionedSite.Store.Snapshot

/-!
# Saving generated files

A generated file is counted, its destination resolved, its content validated and then written: a
revision is allocated, the file's record is found or made, and a version is added. Numbers are
allocated without locks; whoever loses the race for one reads again. A valid file whose write fails is
kept, so that the write can be repeated. How the facts about a markup text are found is left open:
whoever saves brings a reader along.
-/

namespace VersionedSite.Service

open Program

/-! ## Writing -/

/-- Why there is no new revision. -/
inductive AllocationFault where
  /-- Every number that was tried had been taken; the last one is told. -/
  | exhausted (tried : Int)
  /-- The store could not take the row. -/
  | failed (fault : WriteFault)
  deriving DecidableEq, Repr

/-- The revision of a project with the first number that is still free when it is inserted. -/
def allocate (project user : String) :
    (attempts : Nat) → (tried : Int) → Program (Except AllocationFault Revision)
  | 0, tried => pure (.error (.exhausted tried))
  | attempts + 1, _ => do
    let number ← take (.readNextNumber project)
    match ← take (.insertRevision project number user) with
    | .ok revision => pure (.ok revision)
    | .error .taken => allocate project user attempts number
    | .error fault => pure (.error (.failed fault))

/-- A new revision of a project. -/
def createRevision (settings : Settings) (project user : String) :
    Program (Except AllocationFault Revision) :=
  allocate project user settings.revisionAllocationAttempts.toNat 0

/-- The file of a project at a path, inserted or given a new role. -/
def recordFileOnce (project path role : String) : Program (Except WriteFault FileRecord) := do
  match ← take (.findFile project path) with
  | .error fault => pure (.error fault)
  | .ok (some file) => take (.updateFile file role)
  | .ok none => take (.insertFile project path role)

/-- The same, once more if somebody else inserted the file in the meantime. -/
def recordFile (project path role : String) : Program (Except WriteFault FileRecord) := do
  match ← recordFileOnce project path role with
  | .error .taken => recordFileOnce project path role
  | result => pure result

/-- A version of a project's file at a revision. -/
def writeDraft (project : String) (draft : FileDraft) (revision : Revision) :
    Program (Except WriteFault Version) := do
  match ← recordFile project draft.path draft.role with
  | .error fault => pure (.error fault)
  | .ok file => take (.insertVersion file.id revision.id draft.content)

/-- A file that was saved. -/
structure Saved where
  revision : Revision
  draft : FileDraft
  deriving DecidableEq, Repr

/-- Write a draft at a new revision. -/
def persist (settings : Settings) (project user : String) (draft : FileDraft) :
    Program (Except SiteError Saved) := do
  match ← createRevision settings project user with
  | .error (.exhausted _) =>
    pure (.error (.allocationFailed project settings.revisionAllocationAttempts))
  | .error (.failed _) => pure (.error .storeFailed)
  | .ok revision =>
    match ← writeDraft project draft revision with
    | .ok _ => pure (.ok { revision, draft })
    | .error _ =>
      take (.keepPending user project draft)
      pure (.error (.writeFailed draft.path))

/-! ## Saves and retries -/

/-- The draft of accepted content. -/
def draftOf (a : Destination.Accepted) : FileDraft :=
  { path := a.path, role := a.role.name, content := a.content, fixes := a.fixes }

/-- The draft for a destination, if both it and the content are fit. -/
def prepare (read : Markup.OutlineReader) (settings : Settings) (destination content : String) :
    Except SiteError FileDraft := do
  let d ← Destination.resolve destination
  let a ← Destination.accept read d content settings.maxContentBytes
  return draftOf a

/-- Save a generated file. -/
def saveFor (read : Markup.OutlineReader) (settings : Settings)
    (project user destination content : String) : Program (Except SiteError Saved) := do
  let (decision, now) ← take (.countCall user)
  if !decision.allowed then
    pure (.error (.rateLimited decision.resetAt (decision.retryAfter now)))
  else
    match prepare read settings destination content with
    | .error e => pure (.error e)
    | .ok draft => persist settings project user draft

/-- Write the pending save of a user on a project again. -/
def retryFor (settings : Settings) (project user : String) : Program (Except SiteError Saved) := do
  match ← take (.findPending user project) with
  | none => pure (.error (.nothingPending project))
  | some pending =>
    match ← persist settings project user pending.toFileDraft with
    | .error e => pure (.error e)
    | .ok saved =>
      take (.forgetPending user project)
      pure (.ok saved)

/-- Save a generated file of a project that has no history or is the user's own. -/
def saveOwned (read : Markup.OutlineReader) (settings : Settings)
    (project user destination content : String) : Program (Except SiteError Saved) := do
  match denial? (← take (.readLatest project)) project user with
  | some e => pure (.error e)
  | none => saveFor read settings project user destination content

/-- What becomes of a save of texts some of which hold halves of characters. It is refused like any
other save for whatever is wrong with its destination and content; else it breaks down, over the content
before anything is written and over the path when the revision is there already. -/
def saveRough (read : Markup.OutlineReader) (settings : Settings) (project user : String)
    (destination content : Text.Points) : Program (Except SiteError Saved) := do
  match denial? (← take (.readLatest project)) project user with
  | some e => pure (.error e)
  | none =>
    let (decision, now) ← take (.countCall user)
    if !decision.allowed then
      pure (.error (.rateLimited decision.resetAt (decision.retryAfter now)))
    else
      match Destination.resolve (String.ofList destination.replaced), content.text? with
      | .error _, _ => pure (.error (.invalidDestination destination))
      | .ok _, none => pure (.error .textBroken)
      | .ok d, some content =>
        match Destination.accept read d content settings.maxContentBytes with
        | .error (.contentTooLarge reason) => pure (.error (.contentTooLarge reason))
        | .error _ => pure (.error .textBroken)
        | .ok _ =>
          match ← createRevision settings project user with
          | .error (.exhausted _) =>
            pure (.error (.allocationFailed project settings.revisionAllocationAttempts))
          | .error (.failed _) => pure (.error .storeFailed)
          | .ok _ => pure (.error .textBroken)

/-! ## Context -/

/-- What to look at before a file is generated. -/
structure Context where
  path : String
  isModification : Bool
  files : List VisibleFile
  deriving DecidableEq, Repr

/-- The current content of a path that is to be modified, or of all others if it is new. -/
def contextFor (store : Store) (project path : String) (isModification : Bool) :
    Except SiteError Context := do
  let d ← Destination.resolve path
  let files :=
    if isModification then
      ((store.latest? project).bind fun latest =>
        store.contentAt project d.path latest.number).toList
    else store.filesExcept project d.path
  return { path := d.path, isModification, files }

end VersionedSite.Service
