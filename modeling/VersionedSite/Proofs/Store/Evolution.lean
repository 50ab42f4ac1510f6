import VersionedSite.Proofs.Store.Additions
import VersionedSite.Proofs.Store.Contents

/-!
# Stores that evolve

Several writers fill the tables of one store. Each relies on it that no row gets lost and that a number
which was next some time ago either still is or has been taken, with all behind it
(`Store.HasBeenNext`); each write that keeps to what its writer was told leaves a store on which the
others can rely as before (`Store.Evolves`).

* `HasBeenNext.eq_of_free`: a number that has been next and is free is the next one.
* `evolves_addRevision`, `evolves_addFile`, `evolves_updateFile`, `evolves_addVersion`: what the writes
  leave to rely on.
* `sameContents_addVersion`: a version shows nothing at numbers below its own.
-/

namespace VersionedSite.Store

variable {s t u : Store} {now number n : Int} {project owner user path role : String} {r : Revision}
  {f : FileRecord}

/-! ## Numbers that have been next -/

/-- Whether a number of a project follows the greatest, or has been taken with all from it up to the
greatest. -/
def HasBeenNext (s : Store) (project : String) (n : Int) : Prop :=
  n ≤ s.greatest project + 1 ∧ ∀ m, n ≤ m → m ≤ s.greatest project → m ∈ s.numbers project

theorem hasBeenNext_next (s : Store) (project : String) :
    s.HasBeenNext project (s.greatest project + 1) :=
  ⟨Int.le_refl _, fun m hn hm => by omega⟩

theorem HasBeenNext.eq_of_free (h : s.HasBeenNext project number)
    (ha : s.addRevision now project number user = some (r, t)) :
    number = s.greatest project + 1 := by
  by_contra hne
  have hle := h.1
  obtain ⟨r', hr', hp, hn⟩ := mem_numbers.1 (h.2 number (Int.le_refl _) (by omega))
  exact (addRevision_eq_some.1 ha).1 r' hr' hp hn

theorem HasBeenNext.addRevision (h : s.HasBeenNext project n)
    (ha : s.addRevision now owner number user = some (r, t)) (hn : number = s.greatest owner + 1) :
    t.HasBeenNext project n := by
  have hgreatest := greatest_addRevision ha hn project
  refine ⟨?_, fun m hm hle => ?_⟩
  · have hle := h.1
    rw [hgreatest]
    split <;> omega
  · have hbehind : ∀ k, n - 1 < k → k ≤ s.greatest project → k ∈ s.numbers project :=
      fun k hk => h.2 k (by omega)
    exact mem_numbers_addRevision ha hn hbehind (by omega) hle

/-! ## Writes -/

/-- A later store to whoever writes beside others: no row is lost, and what has been next has been
next. -/
structure Evolves (s t : Store) : Prop extends Grows s t where
  revisions : s.revisions ⊆ t.revisions
  hasBeenNext : ∀ project n, s.HasBeenNext project n → t.HasBeenNext project n

theorem Evolves.trans (h : Evolves s t) (h' : Evolves t u) : Evolves s u where
  greatest_le p := Int.le_trans (h.greatest_le p) (h'.greatest_le p)
  files id p path hf := h'.files id p path (h.files id p path hf)
  revisions := List.Subset.trans h.revisions h'.revisions
  hasBeenNext p n hn := h'.hasBeenNext p n (h.hasBeenNext p n hn)

/-- Whoever leaves the revisions alone and loses no file leaves as much to rely on. -/
theorem evolves_of_grows (h : Grows s t) (hr : t.revisions = s.revisions) : Evolves s t where
  toGrows := h
  revisions := by
    rw [hr]
    exact List.Subset.refl _
  hasBeenNext p n hn := by
    simpa only [HasBeenNext, greatest, numbers, hr] using hn

theorem Evolves.refl (s : Store) : Evolves s s := evolves_of_grows (.refl s) rfl

theorem evolves_of_eq (hr : t.revisions = s.revisions) (hf : t.files = s.files) : Evolves s t := by
  refine evolves_of_grows ⟨fun p => Int.le_of_eq ?_, fun id p path hold => ?_⟩ hr
  · simp only [greatest, numbers, hr]
  · unfold HoldsFile at hold ⊢
    rwa [hf]

theorem evolves_addRevision (ha : s.addRevision now project number user = some (r, t))
    (hn : s.HasBeenNext project number) : Evolves s t where
  toGrows := grows_addRevision ha (hn.eq_of_free ha)
  revisions := by
    obtain ⟨-, -, rfl⟩ := addRevision_eq_some.1 ha
    exact List.subset_append_left _ _
  hasBeenNext p n h := h.addRevision ha (hn.eq_of_free ha)

theorem evolves_addFile (ha : s.addFile now project path role = some (f, t)) : Evolves s t := by
  have hgrows := grows_addFile ha
  obtain ⟨-, -, rfl⟩ := addFile_eq_some.1 ha
  exact evolves_of_grows hgrows rfl

theorem evolves_updateFile (s : Store) (now : Int) (found : FileRecord) (role : String) :
    Evolves s (s.updateFile now found role).2 :=
  evolves_of_grows (grows_updateFile s now found role) rfl

theorem evolves_addVersion (s : Store) (now file revision : Int) (content : String) :
    Evolves s (s.addVersion now file revision content).2 :=
  evolves_of_eq rfl rfl

/-! ## What writes show at a number -/

theorem sameContents_of_seen_eq (h : t.seen project = s.seen project) :
    SameContents project s n t n :=
  sameContents_of_eq fun path => by rw [contentAt_eq, contentAt_eq, h]

theorem sameContents_updateFile (s : Store) (now : Int) (found : FileRecord) (role : String) :
    SameContents project s n (s.updateFile now found role).2 n := by
  have hseen : ((s.updateFile now found role).2.seen project).map VisibleFile.contents =
      (s.seen project).map VisibleFile.contents ++ [] := by
    rw [seen_updateFile_eq_map, seen, List.map_map, List.map_map, List.append_nil]
    refine List.map_congr_left fun r _ => ?_
    show (r.regarding found now role).visible.contents = r.visible.contents
    unfold Row.regarding
    split <;> rfl
  exact sameContents_of_seen hseen (by simp)

/-- A version shows nothing at numbers below its own. -/
theorem sameContents_addVersion (h : s.Sound) (hf : f ∈ s.files) (hr : r ∈ s.revisions)
    (hp : r.project = f.project) (hlt : r.project = project → n < r.number) (content : String) :
    SameContents project s n (s.addVersion now f.id r.id content).2 n := by
  have hseen : (s.addVersion now f.id r.id content).2.seen project = _ :=
    h.seen_addVersion hf hr hp content
  split at hseen
  · rename_i hproject
    refine sameContents_of_seen (by rw [hseen, List.map_append]) fun c hc => ?_
    rw [List.map_singleton, List.mem_singleton] at hc
    rw [hc]
    exact hlt (hp.trans hproject)
  · rw [List.append_nil] at hseen
    exact sameContents_of_seen_eq hseen

end VersionedSite.Store
