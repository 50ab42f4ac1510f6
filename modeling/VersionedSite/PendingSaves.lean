import VersionedSite.Clock
import VersionedSite.OrderedMap

/-!
# Pending saves

Validated files whose write failed, kept so that they can be written again. There is one per user and
project, the latest; it is kept for a limited time. Times are in milliseconds.

* `find?_put_of_ne`, `find?_discard_of_ne`: other users and projects are not concerned.
-/

namespace VersionedSite

/-- A validated file that is to be written. -/
structure FileDraft where
  path : String
  /-- The name of the file's role. -/
  role : String
  content : String
  /-- What was repaired in the content. -/
  fixes : List String
  deriving DecidableEq, Repr

/-- A validated file that waits to be written again. -/
structure PendingSave extends FileDraft where
  /-- When the write failed. -/
  since : Int
  deriving DecidableEq, Repr

/-- The pending save of each user and project. -/
abbrev PendingSaves := OrderedMap (String × String) PendingSave

namespace PendingSaves

/-- Keep a save. -/
def put (p : PendingSaves) (user project : String) (save : PendingSave) : PendingSaves :=
  p.insert (user, project) save

/-- The save of a user and project unless its time is up. One whose time is up is forgotten. -/
def get (expiry : Expiry) (now : Int) (p : PendingSaves) (user project : String) :
    Option PendingSave × PendingSaves :=
  match p.find? (user, project) with
  | none => (none, p)
  | some save =>
    if expiry.isUp save.since now then (none, p.erase (user, project)) else (some save, p)

/-- Forget the save of a user and project. -/
def discard (p : PendingSaves) (user project : String) : PendingSaves := p.erase (user, project)

/-- Forget all saves whose time is up. -/
def sweep (expiry : Expiry) (now : Int) (p : PendingSaves) : PendingSaves :=
  p.dropWhere fun _ save => expiry.isDue save.since now

/-- A sweep after each of some rounds of waiting: the time then, and what is still kept. -/
def sweepRounds (expiry : Expiry) (pause : Int) :
    (rounds : Nat) → Int → PendingSaves → Int × PendingSaves
  | 0, now, p => (now, p)
  | rounds + 1, now, p =>
    sweepRounds expiry pause rounds (now + pause) (p.sweep expiry (now + pause))

theorem find?_put_of_ne (p : PendingSaves) {user project other : String} {elsewhere : String}
    (save : PendingSave) (h : (other, elsewhere) ≠ (user, project)) :
    (p.put user project save).find? (other, elsewhere) = p.find? (other, elsewhere) :=
  OrderedMap.find?_insert_of_ne p h save

theorem find?_discard_of_ne (p : PendingSaves) {user project other elsewhere : String}
    (h : (other, elsewhere) ≠ (user, project)) :
    (p.discard user project).find? (other, elsewhere) = p.find? (other, elsewhere) :=
  OrderedMap.find?_erase_of_ne p h

end PendingSaves

end VersionedSite
