import VersionedSite.Service.Step

/-!
# What a step does

Whatever befalls a step, there is one thing at most that it does to the tables (`StoreStep`), and one that it
does to the saves that are kept (`PendingStep`). What steps preserve is shown case by case from these, and not
from how a step is performed.

* `store_perform`: a step that does not write leaves the tables as they are.
-/

namespace VersionedSite.Service

open Store

theorem pending_inserted {α : Type} (s : Service) (row : Option (α × Store)) :
    (s.inserted row).2.pending = s.pending := by
  cases row <;> rfl

/-! ## The tables -/

/-- What a step can do to the tables. -/
inductive StoreStep (now : Int) : Step → Store → Store → Prop where
  | nothing (st : Step) (s : Store) : StoreStep now st s s
  | revision {project user : String} {number : Int} {s t : Store} {r : Revision}
      (h : s.addRevision now project number user = some (r, t)) :
      StoreStep now (.insertRevision project number user) s t
  | file {project path role : String} {s t : Store} {f : FileRecord}
      (h : s.addFile now project path role = some (f, t)) :
      StoreStep now (.insertFile project path role) s t
  | role (s : Store) (found : FileRecord) (role : String) :
      StoreStep now (.updateFile found role) s (s.updateFile now found role).2
  | version (s : Store) (file revision : Int) (content : String) :
      StoreStep now (.insertVersion file revision content) s
        (s.addVersion now file revision content).2

theorem storeStep_perform (terms : Terms) (d : Option Disturbance) (st : Step) (s : Service) :
    StoreStep terms.now st s.store (s.perform terms d st).2.store := by
  cases st with
  | insertRevision owner number user =>
    simp only [perform]
    split
    · exact .nothing _ _
    · cases ha : s.store.addRevision terms.now owner number user with
      | none => exact .nothing _ _
      | some row => exact .revision (r := row.1) ha
  | insertFile owner path role =>
    simp only [perform]
    split
    · exact .nothing _ _
    · exact .nothing _ _
    · cases ha : s.store.addFile terms.now owner path role with
      | none => exact .nothing _ _
      | some row => exact .file (f := row.1) ha
  | updateFile found role =>
    simp only [perform]
    split
    · exact .nothing _ _
    · exact .nothing _ _
    · exact .role _ _ _
  | insertVersion file revision content =>
    simp only [perform]
    split
    · exact .nothing _ _
    · exact .nothing _ _
    · exact .version _ _ _ _
  | readNextNumber owner | findFile owner path =>
    simp only [perform]
    split <;> exact .nothing _ _
  | countCall user | readLatest owner | findPending user owner | keepPending user owner draft
  | forgetPending user owner => exact .nothing _ _

theorem store_perform {st : Step} (h : st.isWrite = false) (terms : Terms) (d : Option Disturbance)
    (s : Service) : (s.perform terms d st).2.store = s.store := by
  have hstep := storeStep_perform terms d st s
  generalize (s.perform terms d st).2.store = store at hstep
  cases hstep with
  | nothing => rfl
  | revision | file | role | version => cases h

/-! ## The saves that are kept -/

/-- What a step can do to the saves that are kept. -/
inductive PendingStep (terms : Terms) : Step → PendingSaves → PendingSaves → Prop where
  | nothing (st : Step) (p : PendingSaves) : PendingStep terms st p p
  | find (p : PendingSaves) (user project : String) :
      PendingStep terms (.findPending user project) p
        (p.get terms.pendingExpiry terms.now user project).2
  | keep (p : PendingSaves) (user project : String) (draft : FileDraft) :
      PendingStep terms (.keepPending user project draft) p
        (p.put user project { draft with since := terms.now })
  | forget (p : PendingSaves) (user project : String) :
      PendingStep terms (.forgetPending user project) p (p.discard user project)

theorem pendingStep_perform (terms : Terms) (d : Option Disturbance) (st : Step) (s : Service) :
    PendingStep terms st s.pending (s.perform terms d st).2.pending := by
  cases st with
  | findPending user project => exact .find _ _ _
  | keepPending user project draft => exact .keep _ _ _ _
  | forgetPending user project => exact .forget _ _ _
  | countCall user | readLatest project => exact .nothing _ _
  | readNextNumber project | findFile project path =>
    simp only [perform]
    split <;> exact .nothing _ _
  | updateFile file role | insertVersion file revision content =>
    simp only [perform]
    split <;> exact .nothing _ _
  | insertRevision project number user | insertFile project path role =>
    simp only [perform]
    split <;> first | exact .nothing _ _ | (rw [pending_inserted]; exact .nothing _ _)

end VersionedSite.Service
