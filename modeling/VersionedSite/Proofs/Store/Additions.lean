import VersionedSite.Proofs.Store.Written

/-!
# Additions to a store

A store with what several writers have added to another one (`Store.Adds`): some paths have been given
the role they tell, and some files have been saved. Each write adds its part, whatever has been written
before it. Where the same is added, the same is seen, in whatever order it was added
(`Adds.contentAt_eq`). Whatever is written, no number gets smaller and no file gets lost (`Grows`).
-/

namespace VersionedSite

/-- A stored file in the role that its path tells, if the path is one of some. -/
def VisibleFile.classified (touched : String → Bool) (f : VisibleFile) : VisibleFile :=
  if touched f.path = true then { f with role := (Role.ofPath f.path).name } else f

section Classified

variable (touched : String → Bool) (f : VisibleFile)

@[simp] theorem VisibleFile.classified_path : (f.classified touched).path = f.path := by
  unfold classified
  split <;> rfl

@[simp] theorem VisibleFile.classified_number : (f.classified touched).number = f.number := by
  unfold classified
  split <;> rfl

theorem VisibleFile.recast_classified {touched' : String → Bool} {path : String}
    (h : ∀ q, touched' q = true ↔ touched q = true ∨ path = q) :
    (f.classified touched).recast path (Role.ofPath path).name = f.classified touched' := by
  have hpath := h f.path
  unfold recast
  rw [classified_path]
  by_cases he : path = f.path
  · have ht : touched' f.path = true := hpath.2 (.inr he)
    rw [if_pos he.symm, classified, classified, if_pos ht, he]
    split <;> rfl
  · have ht : touched' f.path = touched f.path := by
      rw [Bool.eq_iff_iff, hpath]
      simp [he]
    rw [if_neg (Ne.symm he), classified, classified, ht]

end Classified

namespace Store

/-- A store with what has been added to another one: the paths of each project that have been given the
roles they tell, and the files that have been saved in each project, oldest first. -/
structure Adds (s : Store) (touched : String → String → Bool) (saved : String → List VisibleFile)
    (t : Store) : Prop where
  sound : t.Sound
  seen_eq : ∀ p, t.seen p = (s.seen p).map (VisibleFile.classified (touched p)) ++ saved p
  role_eq : ∀ f ∈ t.files, touched f.project f.path = true → f.role = (Role.ofPath f.path).name
  saved_role : ∀ p, ∀ f ∈ saved p, f.role = (Role.ofPath f.path).name

variable {s t u : Store} {touched touched' : String → String → Bool}
  {saved saved' : String → List VisibleFile} {now : Int} {project path : String}

theorem Sound.adds (h : s.Sound) : Adds s (fun _ _ => false) (fun _ => []) s where
  sound := h
  seen_eq p := by
    rw [List.append_nil]
    exact ((List.map_congr_left fun f _ => rfl).trans (List.map_id _)).symm
  role_eq _ _ ht := by cases ht
  saved_role _ _ hf := by cases hf

namespace Adds

theorem addRevision (h : Adds s touched saved t) {number : Int} {user : String} {r : Revision}
    (ha : t.addRevision now project number user = some (r, u)) : Adds s touched saved u where
  sound := h.sound.addRevision ha
  seen_eq p := by
    rw [h.sound.seen_addRevision ha]
    exact h.seen_eq p
  role_eq := by
    obtain ⟨-, -, rfl⟩ := addRevision_eq_some.1 ha
    exact h.role_eq
  saved_role := h.saved_role

/-- The files that were saved are in the roles that their paths tell already. -/
theorem map_recast_seen (h : Adds s touched saved t)
    (ht : ∀ p q, touched' p q = true ↔ touched p q = true ∨ (project = p ∧ path = q)) (p : String) :
    (if project = p then (t.seen p).map (VisibleFile.recast path (Role.ofPath path).name)
      else t.seen p) = (s.seen p).map (VisibleFile.classified (touched' p)) ++ saved p := by
  rw [h.seen_eq]
  split
  · rename_i hp
    have hsaved : (saved p).map (VisibleFile.recast path (Role.ofPath path).name) = saved p := by
      refine (List.map_congr_left fun f hf => ?_).trans (List.map_id _)
      unfold VisibleFile.recast
      split
      · rename_i he
        rw [← he, ← h.saved_role p f hf]
        rfl
      · rfl
    rw [List.map_append, hsaved, List.map_map]
    congr 1
    refine List.map_congr_left fun f _ => ?_
    refine f.recast_classified (touched p) fun q => ?_
    rw [ht]
    simp [hp]
  · rename_i hp
    congr 1
    refine List.map_congr_left fun f _ => ?_
    have hsame : touched' p f.path = touched p f.path := by
      rw [Bool.eq_iff_iff, ht]
      simp [hp]
    simp only [VisibleFile.classified, hsame]

theorem addFile (h : Adds s touched saved t)
    (ht : ∀ p q, touched' p q = true ↔ touched p q = true ∨ (project = p ∧ path = q))
    {f : FileRecord} (ha : t.addFile now project path (Role.ofPath path).name = some (f, u)) :
    Adds s touched' saved u where
  sound := h.sound.addFile ha
  seen_eq p := by
    rw [Records.seen_eq (.inr ha) h.sound]
    exact h.map_recast_seen ht p
  role_eq := by
    obtain ⟨hfree, rfl, rfl⟩ := addFile_eq_some.1 ha
    intro g hg hgt
    rcases List.mem_append.1 hg with hg | hg
    · refine h.role_eq g hg (((ht _ _).1 hgt).resolve_right fun he => ?_)
      exact hfree g hg he.1.symm he.2.symm
    · rw [List.mem_singleton.1 hg]
  saved_role := h.saved_role

theorem updateFile (h : Adds s touched saved t)
    (ht : ∀ p q, touched' p q = true ↔ touched p q = true ∨ (project = p ∧ path = q))
    {f found : FileRecord} (hf : f ∈ t.files) (hi : f.id = found.id) (hp : f.project = project)
    (hq : f.path = path) :
    Adds s touched' saved (t.updateFile now found (Role.ofPath path).name).2 where
  sound := h.sound.updateFile found _
  seen_eq p := by
    rw [h.sound.seen_updateFile hf hi, hp, hq]
    exact h.map_recast_seen ht p
  role_eq := by
    intro g hg hgt
    obtain ⟨g₀, hg₀, rfl⟩ := List.mem_map.1 hg
    by_cases he : g₀.id = found.id
    · rw [if_pos he, h.sound.file_ext hg₀ hf (he.trans hi.symm)]
      show _ = (Role.ofPath f.path).name
      rw [hq]
      rfl
    · rw [if_neg he] at hgt ⊢
      refine h.role_eq g₀ hg₀ (((ht _ _).1 hgt).resolve_right fun hk => he ?_)
      rw [h.sound.file_ext_path hg₀ hf (hk.1.symm.trans hp.symm) (hk.2.symm.trans hq.symm), hi]
  saved_role := h.saved_role

theorem records (h : Adds s touched saved t)
    (ht : ∀ p q, touched' p q = true ↔ touched p q = true ∨ (project = p ∧ path = q))
    {f : FileRecord} (hr : Records now project path (Role.ofPath path).name t f u) :
    Adds s touched' saved u := by
  rcases hr with ⟨found, hf, hu⟩ | ha
  · obtain ⟨hm, hp, hq⟩ := h.sound.file?_eq_some.1 hf
    cases hu
    exact h.updateFile ht hm rfl hp hq
  · exact h.addFile ht ha

theorem addVersion (h : Adds s touched saved t) {f : FileRecord} {r : Revision} (hf : f ∈ t.files)
    (hr : r ∈ t.revisions) (hp : r.project = f.project) (ht : touched f.project f.path = true)
    {content : String}
    (hsaved : ∀ p, saved' p = saved p ++ if f.project = p then
      [{ path := f.path, role := (Role.ofPath f.path).name, content, number := r.number }] else []) :
    Adds s touched saved' (t.addVersion now f.id r.id content).2 where
  sound := h.sound.addVersion ⟨f, hf, rfl⟩ ⟨r, hr, rfl⟩
  seen_eq p := by
    rw [h.sound.seen_addVersion hf hr hp, h.role_eq f hf ht, h.seen_eq, hsaved, List.append_assoc]
  role_eq := h.role_eq
  saved_role p g hg := by
    rw [hsaved] at hg
    rcases List.mem_append.1 hg with hg | hg
    · exact h.saved_role p g hg
    · split at hg
      · rw [List.mem_singleton.1 hg]
      · cases hg

/-- What is seen depends on what was added, not on the order in which it was. -/
theorem contentAt_eq (h : Adds s touched saved t) (h' : Adds s touched' saved' u) (hs : s.Keyed)
    (ht : ∀ q, touched project q = touched' project q)
    (hperm : (saved project).Perm (saved' project))
    (hnodup : ((saved project).map VisibleFile.number).Nodup)
    (hlt : ∀ f ∈ saved project, s.greatest project < f.number) (number : Int) :
    t.contentAt project path number = u.contentAt project path number := by
  have hbase : (s.seen project).map (VisibleFile.classified (touched' project)) =
      (s.seen project).map (VisibleFile.classified (touched project)) := by
    rw [funext ht]
  have hbehind : ∀ l ⊆ saved project,
      ∀ f ∈ upTo path number ((s.seen project).map (VisibleFile.classified (touched project))),
        ∀ g ∈ upTo path number l, f.number ≤ g.number := by
    intro l hl f hf g hg
    obtain ⟨f₀, hf₀, rfl⟩ := List.mem_map.1 (upTo_subset _ _ _ hf)
    have hle := hs.le_greatest_of_mem_seen hf₀
    have hlt := hlt g (hl (upTo_subset _ _ _ hg))
    rw [VisibleFile.classified_number]
    omega
  rw [Store.contentAt_eq, Store.contentAt_eq, h.seen_eq, h'.seen_eq, hbase, upTo_append, upTo_append,
    newestOf_append (hbehind _ fun f hf => hf),
    newestOf_append (hbehind _ fun f hf => hperm.mem_iff.2 hf)]
  congr 1
  refine newestOf_perm (hperm.filter _) ?_
  exact hnodup.sublist (List.filter_sublist.map _)

end Adds

/-! ## Later stores -/

/-- Whether the file of a project at a path is there under an id. -/
def HoldsFile (s : Store) (id : Int) (project path : String) : Prop :=
  ∃ f ∈ s.files, f.id = id ∧ f.project = project ∧ f.path = path

/-- A later store: no number gets smaller, and no file gets lost. -/
structure Grows (s t : Store) : Prop where
  greatest_le : ∀ p, s.greatest p ≤ t.greatest p
  files : ∀ id project path, s.HoldsFile id project path → t.HoldsFile id project path

theorem Grows.refl (s : Store) : Grows s s := ⟨fun _ => Int.le_refl _, fun _ _ _ h => h⟩

theorem grows_addRevision {s t : Store} {now number : Int} {project user : String} {r : Revision}
    (h : s.addRevision now project number user = some (r, t)) (hn : number = s.greatest project + 1) :
    Grows s t := by
  refine ⟨fun p => ?_, fun id q path hf => ?_⟩
  · rw [greatest_addRevision h hn]
    split <;> omega
  · obtain ⟨-, -, rfl⟩ := addRevision_eq_some.1 h
    exact hf

theorem grows_addFile {s t : Store} {now : Int} {project path role : String} {f : FileRecord}
    (h : s.addFile now project path role = some (f, t)) : Grows s t := by
  obtain ⟨-, -, rfl⟩ := addFile_eq_some.1 h
  refine ⟨fun p => Int.le_refl _, fun id q path hf => ?_⟩
  obtain ⟨g, hg, hk⟩ := hf
  exact ⟨g, List.mem_append_left _ hg, hk⟩

theorem grows_updateFile (s : Store) (now : Int) (found : FileRecord) (role : String) :
    Grows s (s.updateFile now found role).2 := by
  refine ⟨fun p => Int.le_refl _, fun id q path hf => ?_⟩
  obtain ⟨g, hg, hk⟩ := hf
  refine ⟨_, List.mem_map.2 ⟨g, hg, rfl⟩, ?_⟩
  split <;> exact hk

end Store

end VersionedSite
