import VersionedSite.PendingSaves
import VersionedSite.Proofs.OrderedMap

/-!
# Saves that are kept

Nothing is kept but what was put: looking for a save and forgetting one only ever take saves away.

What is kept for a user and project stays until its time is up, whatever becomes of others
(`find?_get_of_ne`, `find?_sweep`); what is not kept is not there afterwards either (`find?_sweep_none`).
-/

namespace VersionedSite.PendingSaves

variable {p : PendingSaves} {user project : String} {save : PendingSave}

theorem entries_put_subset (p : PendingSaves) (user project : String) (save : PendingSave) :
    (p.put user project save).entries ⊆ ((user, project), save) :: p.entries :=
  OrderedMap.entries_insert_subset p (user, project) save

theorem entries_discard_subset (p : PendingSaves) (user project : String) :
    (p.discard user project).entries ⊆ p.entries :=
  OrderedMap.entries_erase_subset p (user, project)

theorem entries_get_subset (p : PendingSaves) (expiry : Expiry) (now : Int) (user project : String) :
    (p.get expiry now user project).2.entries ⊆ p.entries := by
  unfold get
  split
  · exact List.Subset.refl _
  · split
    · exact OrderedMap.entries_erase_subset _ _
    · exact List.Subset.refl _

theorem mem_entries_of_get {expiry : Expiry} {now : Int}
    (h : (p.get expiry now user project).1 = some save) : ((user, project), save) ∈ p.entries := by
  unfold get at h
  split at h
  · cases h
  · rename_i found hf
    split at h <;> cases h
    exact OrderedMap.mem_keys_of_find? hf

/-! ## What is kept for one user and project -/

variable {expiry : Expiry} {now : Int}

theorem get_of_find?_none (h : p.find? (user, project) = none) :
    p.get expiry now user project = (none, p) := by
  simp [get, h]

theorem get_of_find? (h : p.find? (user, project) = some save)
    (hup : expiry.isUp save.since now = false) :
    p.get expiry now user project = (some save, p) := by
  simp [get, h, hup]

theorem get_of_isUp (h : p.find? (user, project) = some save)
    (hup : expiry.isUp save.since now = true) :
    p.get expiry now user project = (none, p.discard user project) := by
  simp [get, h, hup, discard]

theorem find?_get_of_ne {other elsewhere : String} (h : (user, project) ≠ (other, elsewhere)) :
    (p.get expiry now other elsewhere).2.find? (user, project) = p.find? (user, project) := by
  unfold get
  split
  · rfl
  · split
    · exact OrderedMap.find?_erase_of_ne p h
    · rfl

theorem find?_sweep (h : p.find? (user, project) = some save)
    (hdue : expiry.isDue save.since now = false) :
    (p.sweep expiry now).find? (user, project) = some save :=
  OrderedMap.find?_dropWhere h hdue

theorem find?_sweep_cases (hp : p.keys.Nodup) (h : p.find? (user, project) = some save) :
    (p.sweep expiry now).find? (user, project) = none ∨
      (p.sweep expiry now).find? (user, project) = some save :=
  OrderedMap.find?_dropWhere_cases hp h

theorem nodup_keys_get (hp : p.keys.Nodup) (expiry : Expiry) (now : Int) (user project : String) :
    (p.get expiry now user project).2.keys.Nodup := by
  unfold get
  split
  · exact hp
  · split
    · exact OrderedMap.nodup_keys_filter hp _
    · exact hp

theorem find?_sweep_none (h : p.find? (user, project) = none) :
    (p.sweep expiry now).find? (user, project) = none :=
  OrderedMap.find?_dropWhere_none h

end VersionedSite.PendingSaves
