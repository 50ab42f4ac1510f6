import Mathlib.Data.List.Nodup
import VersionedSite.Store.Record

/-!
# Integrity of the store

What the constraints of the tables say. In `Store.Keyed` no key repeats: ids, the numbers of a project's
revisions and the paths of its files. In `Store.Sound`, besides, a version refers to a file and a revision
that are there.

* `addRevision_eq_some`, `addFile_eq_some`, `addPublication_eq_some`: what an insertion needs and leaves.
* `Sound.addRevision`, `Sound.addFile`, `Sound.updateFile`, `Sound.addVersion`: every write keeps a store
  sound.
* `greatest_addRevision`, `mem_numbers_addRevision`: the number that follows the greatest becomes the
  greatest, and leaves no gap.
-/

namespace VersionedSite

/-- A search that no two rows of a table fit finds whichever row fits. -/
theorem find?_eq_some_of_unique {α : Type} {table : List α} {fits : α → Bool}
    (h : ∀ a ∈ table, ∀ b ∈ table, fits a = true → fits b = true → a = b) {a : α} :
    table.find? fits = some a ↔ a ∈ table ∧ fits a = true := by
  constructor
  · intro hf
    exact ⟨List.mem_of_find?_eq_some hf, List.find?_some hf⟩
  · rintro ⟨hm, ha⟩
    cases hf : table.find? fits with
    | none =>
      rw [List.find?_eq_none] at hf
      exact absurd ha (hf a hm)
    | some b =>
      rw [h a hm b (List.mem_of_find?_eq_some hf) ha (List.find?_some hf)]

/-- A row with a key of its own leaves the keys of a table different. -/
theorem nodup_map_concat {α β : Type} {table : List α} {key : α → β} (h : (table.map key).Nodup)
    {a : α} (ha : ∀ b ∈ table, key b ≠ key a) : ((table ++ [a]).map key).Nodup := by
  rw [List.map_append, List.map_singleton, ← List.concat_eq_append]
  refine .concat (fun hm => ?_) h
  obtain ⟨b, hb, he⟩ := List.mem_map.1 hm
  exact ha b hb he

namespace Store

/-- Keys do not repeat. -/
structure Keyed (s : Store) : Prop where
  revisionIds : (s.revisions.map Revision.id).Nodup
  fileIds : (s.files.map FileRecord.id).Nodup
  numbers : (s.revisions.map fun r => (r.project, r.number)).Nodup
  paths : (s.files.map fun f => (f.project, f.path)).Nodup

namespace Keyed

variable {s : Store}

theorem revision_ext (h : s.Keyed) {r r' : Revision} (hr : r ∈ s.revisions) (hr' : r' ∈ s.revisions)
    (he : r.id = r'.id) : r = r' :=
  List.inj_on_of_nodup_map h.revisionIds hr hr' he

theorem revision_ext_number (h : s.Keyed) {r r' : Revision} (hr : r ∈ s.revisions)
    (hr' : r' ∈ s.revisions) (hp : r.project = r'.project) (hn : r.number = r'.number) : r = r' :=
  List.inj_on_of_nodup_map h.numbers hr hr' (Prod.ext hp hn)

theorem file_ext (h : s.Keyed) {f f' : FileRecord} (hf : f ∈ s.files) (hf' : f' ∈ s.files)
    (he : f.id = f'.id) : f = f' :=
  List.inj_on_of_nodup_map h.fileIds hf hf' he

theorem file_ext_path (h : s.Keyed) {f f' : FileRecord} (hf : f ∈ s.files) (hf' : f' ∈ s.files)
    (hp : f.project = f'.project) (hq : f.path = f'.path) : f = f' :=
  List.inj_on_of_nodup_map h.paths hf hf' (Prod.ext hp hq)

theorem find?_revision (h : s.Keyed) {i : Int} {r : Revision} :
    (s.revisions.find? fun r => r.id = i) = some r ↔ r ∈ s.revisions ∧ r.id = i := by
  rw [find?_eq_some_of_unique, decide_eq_true_eq]
  intro a ha b hb hi hj
  simp only [decide_eq_true_eq] at hi hj
  exact h.revision_ext ha hb (hi.trans hj.symm)

theorem find?_file (h : s.Keyed) {i : Int} {f : FileRecord} :
    (s.files.find? fun f => f.id = i) = some f ↔ f ∈ s.files ∧ f.id = i := by
  rw [find?_eq_some_of_unique, decide_eq_true_eq]
  intro a ha b hb hi hj
  simp only [decide_eq_true_eq] at hi hj
  exact h.file_ext ha hb (hi.trans hj.symm)

theorem file?_eq_some (h : s.Keyed) {project path : String} {f : FileRecord} :
    s.file? project path = some f ↔ f ∈ s.files ∧ f.project = project ∧ f.path = path := by
  rw [file?, find?_eq_some_of_unique, decide_eq_true_eq]
  intro a ha b hb hi hj
  simp only [decide_eq_true_eq] at hi hj
  exact h.file_ext_path ha hb (hi.1.trans hj.1.symm) (hi.2.trans hj.2.symm)

/-- The file of a project at a path is in one row at most. -/
theorem length_filter_path_le (h : s.Keyed) (project path : String) :
    (s.files.filter fun f => f.project = project ∧ f.path = path).length ≤ 1 := by
  have hsub := h.paths.sublist
    (List.filter_sublist (p := fun f => f.project = project ∧ f.path = path).map _)
  have hsame : (s.files.filter fun f => f.project = project ∧ f.path = path).map
        (fun f => (f.project, f.path)) =
      List.replicate (s.files.filter fun f => f.project = project ∧ f.path = path).length
        (project, path) := by
    refine List.map_eq_replicate_iff.2 fun f hf => ?_
    have hk := (List.mem_filter.1 hf).2
    rw [decide_eq_true_eq] at hk
    rw [hk.1, hk.2]
  rw [hsame] at hsub
  exact List.nodup_replicate.1 hsub

end Keyed

/-- Keys do not repeat, and versions refer to rows that are there. -/
structure Sound (s : Store) : Prop extends Keyed s where
  file_mem : ∀ v ∈ s.versions, ∃ f ∈ s.files, f.id = v.file
  revision_mem : ∀ v ∈ s.versions, ∃ r ∈ s.revisions, r.id = v.revision

theorem sound_empty : Sound {} where
  revisionIds := List.nodup_nil
  fileIds := List.nodup_nil
  numbers := List.nodup_nil
  paths := List.nodup_nil
  file_mem := by simp
  revision_mem := by simp

/-! ## Insertions -/

section Insertions

variable {s t : Store} {now : Int}

theorem addRevision_eq_some {project user : String} {number : Int} {r : Revision} :
    s.addRevision now project number user = some (r, t) ↔
      (∀ r' ∈ s.revisions, r'.project = project → r'.number ≠ number) ∧
        r = { id := nextId (s.revisions.map Revision.id), project, number, user, createdAt := now } ∧
        t = { s with revisions := s.revisions ++ [r] } := by
  constructor
  · intro h
    have hfree : s.addRevision now project number user ≠ none := by simp [h]
    rw [Ne, addRevision_eq_none] at hfree
    refine ⟨fun r' hr' hp hn => hfree ⟨r', hr', hp, hn⟩, ?_⟩
    unfold addRevision at h
    split at h <;> cases h
    exact ⟨rfl, rfl⟩
  · rintro ⟨hfree, rfl, rfl⟩
    have hnone : s.revision? project number = none := by
      simpa [revision?, List.find?_eq_none] using hfree
    simp [addRevision, hnone]

theorem addFile_eq_some {project path role : String} {f : FileRecord} :
    s.addFile now project path role = some (f, t) ↔
      (∀ f' ∈ s.files, f'.project = project → f'.path ≠ path) ∧
        f = { id := nextId (s.files.map FileRecord.id), project, path, role, createdAt := now,
              updatedAt := now } ∧
        t = { s with files := s.files ++ [f] } := by
  constructor
  · intro h
    have hfree : s.addFile now project path role ≠ none := by simp [h]
    rw [Ne, addFile_eq_none] at hfree
    refine ⟨fun f' hf' hp hq => hfree ⟨f', hf', hp, hq⟩, ?_⟩
    unfold addFile at h
    split at h <;> cases h
    exact ⟨rfl, rfl⟩
  · rintro ⟨hfree, rfl, rfl⟩
    have hnone : s.file? project path = none := by
      simpa [file?, List.find?_eq_none] using hfree
    simp [addFile, hnone]

theorem addPublication_eq_some {publicId project user : String} {number : Int} {p : Publication} :
    s.addPublication now publicId project user number = some (p, t) ↔
      (∀ p' ∈ s.publications, p'.project ≠ project ∧ p'.publicId ≠ publicId) ∧
        p = { publicId, project, user, number, createdAt := now, updatedAt := now } ∧
        t = { s with publications := s.publications ++ [p] } := by
  unfold addPublication
  split
  · rename_i htaken
    rw [List.any_eq_true] at htaken
    obtain ⟨p', hp', hk⟩ := htaken
    rw [Bool.or_eq_true, decide_eq_true_eq, decide_eq_true_eq] at hk
    refine iff_of_false (by simp) fun ⟨hfree, _⟩ => ?_
    exact hk.elim (hfree p' hp').1 (hfree p' hp').2
  · rename_i hfree
    simp only [List.any_eq_true, Bool.or_eq_true, decide_eq_true_eq, not_exists, not_and, not_or]
      at hfree
    constructor
    · intro h
      cases h
      exact ⟨hfree, rfl, rfl⟩
    · rintro ⟨-, rfl, rfl⟩
      rfl

theorem Sound.addRevision (h : s.Sound) {project user : String} {number : Int} {r : Revision}
    (ha : s.addRevision now project number user = some (r, t)) : t.Sound := by
  obtain ⟨hfree, rfl, rfl⟩ := addRevision_eq_some.1 ha
  refine { h with revisionIds := ?_, numbers := ?_, revision_mem := ?_ }
  · exact nodup_map_concat h.revisionIds fun _ => ne_nextId
  · refine nodup_map_concat h.numbers fun r hr he => ?_
    rw [Prod.mk.injEq] at he
    exact hfree r hr he.1 he.2
  · intro v hv
    obtain ⟨r, hr, he⟩ := h.revision_mem v hv
    exact ⟨r, List.mem_append_left _ hr, he⟩

theorem Sound.addFile (h : s.Sound) {project path role : String} {f : FileRecord}
    (ha : s.addFile now project path role = some (f, t)) : t.Sound := by
  obtain ⟨hfree, rfl, rfl⟩ := addFile_eq_some.1 ha
  refine { h with fileIds := ?_, paths := ?_, file_mem := ?_ }
  · exact nodup_map_concat h.fileIds fun _ => ne_nextId
  · refine nodup_map_concat h.paths fun f hf he => ?_
    rw [Prod.mk.injEq] at he
    exact hfree f hf he.1 he.2
  · intro v hv
    obtain ⟨f, hf, he⟩ := h.file_mem v hv
    exact ⟨f, List.mem_append_left _ hf, he⟩

theorem Sound.addVersion (h : s.Sound) {file revision : Int} {content : String}
    (hf : ∃ f ∈ s.files, f.id = file) (hr : ∃ r ∈ s.revisions, r.id = revision) :
    (s.addVersion now file revision content).2.Sound := by
  refine { h with file_mem := ?_, revision_mem := ?_ }
  · intro v hv
    rcases List.mem_append.1 hv with hv | hv
    · exact h.file_mem v hv
    · rw [List.mem_singleton.1 hv]
      exact hf
  · intro v hv
    rcases List.mem_append.1 hv with hv | hv
    · exact h.revision_mem v hv
    · rw [List.mem_singleton.1 hv]
      exact hr

theorem updateFile_files (found : FileRecord) (role : String) :
    (s.updateFile now found role).2.files =
      s.files.map fun f => if f.id = found.id then f.recast now role else f := rfl

/-- A file that is given a role keeps what it is known by. -/
theorem map_updateFile {β : Type} (g : FileRecord → β)
    (hg : ∀ (f : FileRecord) (now : Int) (role : String), g (f.recast now role) = g f)
    (found : FileRecord) (role : String) :
    (s.updateFile now found role).2.files.map g = s.files.map g := by
  rw [updateFile_files, List.map_map]
  refine List.map_congr_left fun f _ => ?_
  dsimp only [Function.comp]
  split
  · rw [hg]
  · rfl

theorem Sound.updateFile (h : s.Sound) (found : FileRecord) (role : String) :
    (s.updateFile now found role).2.Sound := by
  have hids : (s.updateFile now found role).2.files.map FileRecord.id = s.files.map FileRecord.id :=
    map_updateFile _ (fun _ _ _ => rfl) found role
  refine { h with fileIds := ?_, paths := ?_, file_mem := ?_ }
  · rw [hids]
    exact h.fileIds
  · rw [map_updateFile (fun f => (f.project, f.path)) (fun _ _ _ => rfl)]
    exact h.paths
  · intro v hv
    obtain ⟨f, hf, he⟩ := h.file_mem v hv
    have hi := List.mem_map_of_mem (f := FileRecord.id) hf
    rw [← hids, List.mem_map] at hi
    obtain ⟨g, hg, hge⟩ := hi
    exact ⟨g, hg, hge.trans he⟩

end Insertions

/-! ## Numbers -/

section Numbers

variable {s t : Store} {project : String}

theorem mem_numbers {n : Int} :
    n ∈ s.numbers project ↔ ∃ r ∈ s.revisions, r.project = project ∧ r.number = n := by
  simp only [numbers, List.mem_map, List.mem_filter, decide_eq_true_eq, and_assoc]

theorem numbers_addRevision {now number : Int} {user : String} {r : Revision} {owner : String}
    (ha : s.addRevision now owner number user = some (r, t)) (project : String) :
    t.numbers project = s.numbers project ++ if owner = project then [number] else [] := by
  obtain ⟨-, rfl, rfl⟩ := addRevision_eq_some.1 ha
  by_cases h : owner = project <;> simp [numbers, h]

theorem le_greatest {n : Int} (h : n ∈ s.numbers project) : n ≤ s.greatest project := by
  unfold greatest
  cases hm : (s.numbers project).max? with
  | none => simp [List.max?_eq_none_iff.1 hm] at h
  | some m => exact (List.max?_eq_some_iff.1 hm).2 n h

theorem greatest_eq_zero (h : s.numbers project = []) : s.greatest project = 0 := by
  simp [greatest, h]

theorem greatest_mem (h : s.numbers project ≠ []) : s.greatest project ∈ s.numbers project := by
  unfold greatest
  cases hm : (s.numbers project).max? with
  | none => exact absurd (List.max?_eq_none_iff.1 hm) h
  | some m => exact (List.max?_eq_some_iff.1 hm).1

section Next

variable {now number : Int} {owner user : String} {r : Revision}
  (ha : s.addRevision now owner number user = some (r, t)) (hn : number = s.greatest owner + 1)

include ha hn

/-- The number that follows the greatest becomes the greatest. -/
theorem greatest_addRevision (project : String) :
    t.greatest project = if owner = project then s.greatest project + 1 else s.greatest project := by
  have hnumbers := numbers_addRevision ha project
  split
  · rename_i hp
    subst hp
    rw [if_pos rfl] at hnumbers
    have hmax : (t.numbers owner).max? = some number := by
      rw [hnumbers, List.max?_eq_some_iff]
      refine ⟨by simp, fun n hm => ?_⟩
      rcases List.mem_append.1 hm with hm | hm
      · have hle := le_greatest hm
        omega
      · exact Int.le_of_eq (List.mem_singleton.1 hm)
    rw [greatest, hmax, Option.getD_some, hn]
  · rename_i hp
    rw [if_neg hp, List.append_nil] at hnumbers
    simp only [greatest, hnumbers]

/-- It leaves no gap behind a number that there was no gap behind. -/
theorem mem_numbers_addRevision {base : Int}
    (h : ∀ n, base < n → n ≤ s.greatest project → n ∈ s.numbers project) {n : Int} (hlt : base < n)
    (hle : n ≤ t.greatest project) : n ∈ t.numbers project := by
  rw [greatest_addRevision ha hn] at hle
  rw [numbers_addRevision ha, List.mem_append]
  split at hle
  · rename_i hp
    by_cases hg : n ≤ s.greatest project
    · exact .inl (h n hlt hg)
    · refine .inr ?_
      rw [if_pos hp, List.mem_singleton, hn, hp]
      omega
  · exact .inl (h n hlt hle)

end Next

/-- The latest revision has the greatest number. -/
theorem latest?_eq_some {r : Revision} (h : s.latest? project = some r) :
    r ∈ s.revisions ∧ r.project = project ∧ r.number = s.greatest project := by
  obtain ⟨n, hn, hr⟩ := Option.bind_eq_some_iff.1 h
  have hf := List.find?_some hr
  rw [decide_eq_true_eq] at hf
  refine ⟨List.mem_of_find?_eq_some hr, hf.1, ?_⟩
  simp [greatest, hn, hf.2]

/-- A project with a revision has a latest one. -/
theorem exists_latest? {n : Int} (h : n ∈ s.numbers project) :
    ∃ r, s.latest? project = some r ∧ n ≤ r.number := by
  have hne : s.numbers project ≠ [] := List.ne_nil_of_mem h
  obtain ⟨r, hr, hp, hn⟩ := mem_numbers.1 (greatest_mem hne)
  cases hl : s.latest? project with
  | some r' => exact ⟨r', rfl, (latest?_eq_some hl).2.2 ▸ le_greatest h⟩
  | none =>
    have hmax : (s.numbers project).max? = some (s.greatest project) := by
      unfold greatest
      cases hm : (s.numbers project).max? with
      | none => exact absurd (List.max?_eq_none_iff.1 hm) hne
      | some m => rfl
    rw [latest?, hmax, Option.bind_some, revision?, List.find?_eq_none] at hl
    exact absurd (decide_eq_true ⟨hp, hn⟩) (hl r hr)

end Numbers

end Store

end VersionedSite
