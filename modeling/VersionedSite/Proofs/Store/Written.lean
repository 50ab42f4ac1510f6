import VersionedSite.Path.Basic
import VersionedSite.Proofs.Store.Seen

/-!
# Writing to the store

A file is written in three steps: a revision is allocated (`Allocates`), the file is recorded
(`Records`) and a version is inserted. A project then shows what it showed before, and the version
behind it at the new number (`seen_written`); all versions of the file show the role that it was
recorded with.

* `Allocates.number_eq`: the new number follows the greatest, however many readings were outdated.
* `Allocates.gapless`: numbers stay without gaps.
* `Records.classified`: roles that are told by paths stay so.
-/

namespace VersionedSite.Store

/-- A revision was inserted, at the next number or at one that was read too early. -/
def Allocates (now : Int) (stale : Int → Prop) (project user : String) (s : Store) (r : Revision)
    (t : Store) : Prop :=
  ∃ n, (n = s.greatest project + 1 ∨ stale n) ∧ s.addRevision now project n user = some (r, t)

/-- A file was given a role, or inserted with it. -/
def Records (now : Int) (project path role : String) (s : Store) (f : FileRecord) (t : Store) : Prop :=
  (∃ found, s.file? project path = some found ∧ s.updateFile now found role = (f, t)) ∨
    s.addFile now project path role = some (f, t)

/-- The numbers of every project go from one up to the greatest. -/
def Gapless (s : Store) : Prop :=
  ∀ project n, 1 ≤ n → n ≤ s.greatest project → n ∈ s.numbers project

/-- Every file has the role that its path tells. -/
def Classified (s : Store) : Prop := ∀ f ∈ s.files, f.role = (Role.ofPath f.path).name

variable {s t u : Store} {now : Int} {stale : Int → Prop} {project user path role p : String}
  {r : Revision} {f : FileRecord}

/-! ## Revisions -/

namespace Allocates

theorem revisions_eq (h : Allocates now stale project user s r t) :
    t = { s with revisions := s.revisions ++ [r] } := by
  obtain ⟨n, -, ha⟩ := h
  obtain ⟨-, rfl, rfl⟩ := addRevision_eq_some.1 ha
  rfl

theorem project_eq (h : Allocates now stale project user s r t) : r.project = project := by
  obtain ⟨n, -, ha⟩ := h
  obtain ⟨-, rfl, -⟩ := addRevision_eq_some.1 ha
  rfl

theorem user_eq (h : Allocates now stale project user s r t) : r.user = user := by
  obtain ⟨n, -, ha⟩ := h
  obtain ⟨-, rfl, -⟩ := addRevision_eq_some.1 ha
  rfl

theorem publications_eq (h : Allocates now stale project user s r t) :
    t.publications = s.publications := by
  rw [h.revisions_eq]

theorem mem (h : Allocates now stale project user s r t) : r ∈ t.revisions := by
  rw [h.revisions_eq]
  simp

theorem mem_cases (h : Allocates now stale project user s r t) {r' : Revision}
    (hm : r' ∈ t.revisions) : r' ∈ s.revisions ∨ r' = r := by
  rw [h.revisions_eq] at hm
  simpa using hm

/-- A number that is taken is not allocated again, so the number that is allocated is the next. -/
theorem number_eq (h : Allocates now stale project user s r t) (hs : s.Gapless)
    (hstale : ∀ n, stale n → 1 ≤ n ∧ n ≤ s.greatest project + 1) :
    r.number = s.greatest project + 1 := by
  obtain ⟨n, hn, ha⟩ := h
  obtain ⟨hfree, rfl, -⟩ := addRevision_eq_some.1 ha
  show n = _
  rcases hn with hn | hn
  · exact hn
  · obtain ⟨hpos, hle⟩ := hstale n hn
    by_cases hg : n ≤ s.greatest project
    · obtain ⟨r', hr', hp, he⟩ := mem_numbers.1 (hs project n hpos hg)
      exact absurd he (hfree r' hr' hp)
    · omega

theorem sound (h : Allocates now stale project user s r t) (hs : s.Sound) : t.Sound := by
  obtain ⟨n, -, ha⟩ := h
  exact hs.addRevision ha

theorem seen_eq (h : Allocates now stale project user s r t) (hs : s.Sound) : t.seen p = s.seen p := by
  obtain ⟨n, -, ha⟩ := h
  exact hs.seen_addRevision ha

theorem greatest_eq (h : Allocates now stale project user s r t)
    (hn : r.number = s.greatest project + 1) (p : String) :
    t.greatest p = if project = p then s.greatest p + 1 else s.greatest p := by
  obtain ⟨n, -, ha⟩ := h
  have hr := (addRevision_eq_some.1 ha).2.1
  exact greatest_addRevision ha (by rw [← hn, hr]) p

theorem gapless (h : Allocates now stale project user s r t) (hn : r.number = s.greatest project + 1)
    (hs : s.Gapless) : t.Gapless := by
  obtain ⟨n, -, ha⟩ := h
  have hr := (addRevision_eq_some.1 ha).2.1
  intro p m hpos hle
  have hbehind : ∀ k, 0 < k → k ≤ s.greatest p → k ∈ s.numbers p := fun k hk => hs p k hk
  exact mem_numbers_addRevision ha (by rw [← hn, hr]) hbehind hpos hle

theorem classified (h : Allocates now stale project user s r t) (hc : s.Classified) :
    t.Classified := by
  rw [h.revisions_eq]
  exact hc

end Allocates

theorem gapless_empty : Gapless {} := by
  intro project n hpos hle
  have hzero : ({} : Store).greatest project = 0 := greatest_eq_zero rfl
  omega

/-! ## Files -/

namespace Records

theorem revisions_eq (h : Records now project path role s f t) : t.revisions = s.revisions := by
  rcases h with ⟨found, -, hu⟩ | ha
  · cases hu
    rfl
  · obtain ⟨-, -, rfl⟩ := addFile_eq_some.1 ha
    rfl

theorem publications_eq (h : Records now project path role s f t) :
    t.publications = s.publications := by
  rcases h with ⟨found, -, hu⟩ | ha
  · cases hu
    rfl
  · obtain ⟨-, -, rfl⟩ := addFile_eq_some.1 ha
    rfl

theorem numbers_eq (h : Records now project path role s f t) : t.numbers p = s.numbers p := by
  simp only [numbers, h.revisions_eq]

theorem greatest_eq (h : Records now project path role s f t) : t.greatest p = s.greatest p := by
  simp only [greatest, h.numbers_eq]

/-- The file that was recorded is there, under what it is known by and in its role. -/
theorem mem (h : Records now project path role s f t) :
    f ∈ t.files ∧ f.project = project ∧ f.path = path ∧ f.role = role := by
  rcases h with ⟨found, hf, hu⟩ | ha
  · have hm := List.mem_of_find?_eq_some hf
    have hk := List.find?_some hf
    rw [decide_eq_true_eq] at hk
    cases hu
    refine ⟨List.mem_map.2 ⟨found, hm, ?_⟩, hk.1, hk.2, rfl⟩
    simp
  · obtain ⟨-, rfl, rfl⟩ := addFile_eq_some.1 ha
    simp

theorem sound (h : Records now project path role s f t) (hs : s.Sound) : t.Sound := by
  rcases h with ⟨found, -, hu⟩ | ha
  · cases hu
    exact hs.updateFile found role
  · exact hs.addFile ha

/-- A project shows a file's versions in the role that the file was recorded with. -/
theorem seen_eq (h : Records now project path role s f t) (hs : s.Sound) :
    t.seen p =
      if project = p then (s.seen p).map (VisibleFile.recast path role) else s.seen p := by
  rcases h with ⟨found, hf, hu⟩ | ha
  · obtain ⟨hm, rfl, rfl⟩ := hs.file?_eq_some.1 hf
    cases hu
    exact hs.seen_updateFile hm rfl role
  · rw [hs.seen_addFile ha]
    split
    · -- Nothing is shown at the path of a file that was not there.
      rename_i hp
      obtain ⟨hfree, -, -⟩ := addFile_eq_some.1 ha
      refine ((List.map_congr_left fun v hv => ?_).trans (List.map_id _)).symm
      obtain ⟨⟨g, hg, hgp, hgq, -⟩, -⟩ := hs.of_mem_seen hv
      have hne : v.path ≠ path := fun he => hfree g hg (hgp.trans hp.symm) (hgq.trans he)
      simp [VisibleFile.recast, hne]
    · rfl

theorem gapless (h : Records now project path role s f t) (hs : s.Gapless) : t.Gapless := by
  intro p n hpos hle
  rw [h.greatest_eq] at hle
  rw [h.numbers_eq]
  exact hs p n hpos hle

theorem classified (h : Records now project path role s f t) (hs : s.Keyed) (hc : s.Classified)
    (hrole : role = (Role.ofPath path).name) : t.Classified := by
  intro g hg
  rcases h with ⟨found, hf, hu⟩ | ha
  · obtain ⟨hm, -, hq⟩ := hs.file?_eq_some.1 hf
    cases hu
    obtain ⟨g₀, hg₀, rfl⟩ := List.mem_map.1 hg
    split
    · rename_i hi
      rw [hs.file_ext hg₀ hm hi, FileRecord.recast, hq]
      exact hrole
    · exact hc g₀ hg₀
  · obtain ⟨-, rfl, rfl⟩ := addFile_eq_some.1 ha
    rcases List.mem_append.1 hg with hg | hg
    · exact hc g hg
    · rw [List.mem_singleton.1 hg]
      exact hrole

end Records

/-! ## Versions -/

/-- Where roles are told by paths, a file that is recorded once more shows nothing else. -/
theorem Classified.recast_eq (hc : s.Classified) (hs : s.Keyed) {v : VisibleFile} (hv : v ∈ s.seen p) :
    v.recast path (Role.ofPath path).name = v := by
  obtain ⟨⟨g, hg, -, hq, hr⟩, -⟩ := hs.of_mem_seen hv
  unfold VisibleFile.recast
  split
  · rename_i he
    rw [← he, ← hq, ← hc g hg, hr, hq]
  · rfl

theorem Classified.map_recast (hc : s.Classified) (hs : s.Keyed) :
    (s.seen p).map (VisibleFile.recast path (Role.ofPath path).name) = s.seen p :=
  (List.map_congr_left fun _ hv => hc.recast_eq hs hv).trans (List.map_id _)

section Written

variable (hs : s.Sound) (hr : Allocates now stale project user s r t)
  (hf : Records now project path role t f u) (content : String)

include hs hr hf

theorem sound_written : (u.addVersion now f.id r.id content).2.Sound := by
  have hm : r ∈ u.revisions := hf.revisions_eq ▸ hr.mem
  exact (hf.sound (hr.sound hs)).addVersion ⟨f, hf.mem.1, rfl⟩ ⟨r, hm, rfl⟩

/-- What a project shows after a write. -/
theorem seen_written :
    (u.addVersion now f.id r.id content).2.seen p =
      if project = p then
        (s.seen p).map (VisibleFile.recast path role) ++ [{ path, role, content, number := r.number }]
      else s.seen p := by
  obtain ⟨hmem, hp, hq, hrole⟩ := hf.mem
  have hm : r ∈ u.revisions := hf.revisions_eq ▸ hr.mem
  rw [(hf.sound (hr.sound hs)).seen_addVersion hmem hm (hr.project_eq.trans hp.symm),
    hf.seen_eq (hr.sound hs), hr.seen_eq hs, hp, hq, hrole]
  by_cases h : project = p <;> simp [h]

end Written

end VersionedSite.Store
