import VersionedSite.Proofs.Store.Listing
import VersionedSite.Proofs.Store.Written

/-!
# The same contents

The role of a file is that of its latest save, so it can change what is seen at every number. Everything
else that is seen of a file at a number stays: its path, its content and the number that the content is
of (`VisibleFile.contents`). Two views of a project are the same but for roles if they are at every path
(`SameContents`); then their listings are (`SameContents.filesAt`).

* `sameContents_of_seen`: views are the same if what was written in between has greater numbers.
* `sameContents_min`: beyond the greatest number nothing else is seen.
-/

namespace VersionedSite

/-- What is seen of a stored file whatever its role: the path, the content and the number. -/
def VisibleFile.contents (f : VisibleFile) : String × String × Int := (f.path, f.content, f.number)

namespace Store

/-- Whether what a project's files hold in one store at a number they hold in another store at another
number, whatever the roles of the files. -/
def SameContents (project : String) (s : Store) (m : Int) (t : Store) (n : Int) : Prop :=
  ∀ path, (t.contentAt project path n).map VisibleFile.contents =
    (s.contentAt project path m).map VisibleFile.contents

variable {s t u : Store} {project : String} {k m n : Int}

theorem SameContents.refl (project : String) (s : Store) (n : Int) : SameContents project s n s n :=
  fun _ => rfl

theorem SameContents.trans (h : SameContents project s k t m) (h' : SameContents project t m u n) :
    SameContents project s k u n :=
  fun path => (h' path).trans (h path)

theorem sameContents_of_eq (h : ∀ path, t.contentAt project path n = s.contentAt project path m) :
    SameContents project s m t n :=
  fun path => congrArg _ (h path)

/-! ## What is seen -/

/-- What is seen of a path up to a number, whatever its role, told by what is seen of the project. -/
theorem map_contents_contentAt (s : Store) (project path : String) (n : Int) :
    (s.contentAt project path n).map VisibleFile.contents =
      newestOf (fun c => c.2.2)
        (((s.seen project).map VisibleFile.contents).filter fun c => c.1 = path ∧ c.2.2 ≤ n) := by
  have hmap : ∀ l : List VisibleFile, newestOf (fun c : String × String × Int => c.2.2)
      (l.map VisibleFile.contents) = (newestOf VisibleFile.number l).map VisibleFile.contents :=
    newestOf_map fun _ => rfl
  rw [contentAt_eq, upTo, List.filter_map, hmap]
  rfl

/-- What was written beyond a number does not change what is seen at it. -/
theorem sameContents_of_seen {added : List (String × String × Int)}
    (h : (t.seen project).map VisibleFile.contents =
      (s.seen project).map VisibleFile.contents ++ added)
    (hn : ∀ c ∈ added, n < c.2.2) : SameContents project s n t n := by
  intro path
  have hnil : added.filter (fun c => c.1 = path ∧ c.2.2 ≤ n) = [] := by
    refine List.filter_eq_nil_iff.2 fun c hc => ?_
    have hlt := hn c hc
    rw [decide_eq_true_eq]
    omega
  rw [map_contents_contentAt, map_contents_contentAt, h, List.filter_append, hnil, List.append_nil]

theorem SameContents.isSome (h : SameContents project s m t n) (path : String) :
    (t.contentAt project path n).isSome = (s.contentAt project path m).isSome := by
  have hpath := congrArg Option.isSome (h path)
  rwa [Option.isSome_map, Option.isSome_map] at hpath

theorem SameContents.content (h : SameContents project s m t n) (path : String) :
    (t.contentAt project path n).map VisibleFile.content =
      (s.contentAt project path m).map VisibleFile.content := by
  have hpath := congrArg (Option.map fun c => c.2.1) (h path)
  rwa [Option.map_map, Option.map_map] at hpath

theorem mem_map_contents_filesAt (h : s.Keyed) (hc : s.Coherent) {c : String × String × Int} :
    c ∈ (s.filesAt project n).map VisibleFile.contents ↔
      (s.contentAt project c.1 n).map VisibleFile.contents = some c := by
  rw [List.mem_map, Option.map_eq_some_iff]
  constructor
  · rintro ⟨f, hf, rfl⟩
    exact ⟨f, (mem_filesAt h hc).1 hf, rfl⟩
  · rintro ⟨f, hf, rfl⟩
    have hpath := (number_contentAt_le hf).1
    exact ⟨f, (mem_filesAt h hc).2 (hpath ▸ hf), rfl⟩

/-- What is the same at every path is listed alike. -/
theorem SameContents.filesAt (h : SameContents project s m t n) (hs : s.Keyed) (hsc : s.Coherent)
    (ht : t.Keyed) (htc : t.Coherent) :
    (t.filesAt project n).map VisibleFile.contents = (s.filesAt project m).map VisibleFile.contents := by
  have hordered : ∀ (u : Store) (k : Int), ((u.filesAt project k).map VisibleFile.contents).Pairwise
      fun c d => c.1 ≤ d.1 ∧ c.1 ≠ d.1 := fun u k => List.pairwise_map.2 (pairwise_newestPerPath _)
  refine listing_ext (hordered t n) (hordered s m) fun c => ?_
  rw [mem_map_contents_filesAt ht htc, mem_map_contents_filesAt hs hsc, h c.1]

/-! ## Writes -/

section Coherent

variable {now : Int} {stale : Int → Prop} {user path role owner : String} {r : Revision}
  {f : FileRecord}

theorem coherent_empty : Coherent {} := by simp [Coherent]

theorem coherent_addRevision (hc : s.Coherent) {number : Int}
    (ha : s.addRevision now owner number user = some (r, t)) : t.Coherent := by
  obtain ⟨-, -, rfl⟩ := addRevision_eq_some.1 ha
  intro v hv
  obtain ⟨f, hf, r', hr', hk⟩ := hc v hv
  exact ⟨f, hf, r', List.mem_append_left _ hr', hk⟩

theorem Allocates.coherent (h : Allocates now stale owner user s r t) (hc : s.Coherent) :
    t.Coherent := by
  obtain ⟨n, -, ha⟩ := h
  exact coherent_addRevision hc ha

theorem coherent_updateFile (hc : s.Coherent) (found : FileRecord) :
    (s.updateFile now found role).2.Coherent := by
  intro v hv
  obtain ⟨g, hg, r, hr, hk⟩ := hc v hv
  refine ⟨_, List.mem_map.2 ⟨g, hg, rfl⟩, r, hr, ?_⟩
  split <;> exact hk

theorem coherent_addFile (hc : s.Coherent) (ha : s.addFile now owner path role = some (f, t)) :
    t.Coherent := by
  obtain ⟨-, -, rfl⟩ := addFile_eq_some.1 ha
  intro v hv
  obtain ⟨g, hg, hk⟩ := hc v hv
  exact ⟨g, List.mem_append_left _ hg, hk⟩

theorem Records.coherent (h : Records now owner path role s f t) (hc : s.Coherent) : t.Coherent := by
  rcases h with ⟨found, -, hu⟩ | ha
  · cases hu
    exact coherent_updateFile hc found
  · exact coherent_addFile hc ha

theorem coherent_addVersion (hc : s.Coherent) (hf : f ∈ s.files) (hr : r ∈ s.revisions)
    (hp : r.project = f.project) (content : String) :
    (s.addVersion now f.id r.id content).2.Coherent := by
  intro v hv
  rcases List.mem_append.1 hv with hv | hv
  · exact hc v hv
  · rw [List.mem_singleton.1 hv]
    exact ⟨f, hf, r, hr, rfl, rfl, hp.symm⟩

end Coherent

end Store

end VersionedSite
