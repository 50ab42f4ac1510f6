import VersionedSite.Proofs.Destination
import VersionedSite.Proofs.Service.History

/-!
# What is stored is fit

Whatever is called and whichever writes fail, the store holds no version and the pending saves hold no
draft that is not fit for its path (`fit_of_runs`). Content is judged only when it is saved. A retry does
not judge it again, so what is kept to be written again has to stay fit until then (`Fitted`).
-/

namespace VersionedSite

open Destination

/-! ## Stores -/

namespace Store

/-- Whether the content of every version is as the path of its file asks for. -/
def Stocked (asks : String → String → Prop) (s : Store) : Prop :=
  ∀ v ∈ s.versions, ∀ f ∈ s.files, f.id = v.file → asks f.path v.content

variable {asks : String → String → Prop} {s t : Store} {now : Int} {stale : Int → Prop}
  {project user path role : String} {r : Revision} {f : FileRecord}

theorem Allocates.stocked (h : Allocates now stale project user s r t) (hs : s.Stocked asks) :
    t.Stocked asks := by
  rw [h.revisions_eq]
  exact hs

/-- A file that is recorded has a path already, or has no versions yet. -/
theorem Records.stocked (h : Records now project path role s f t) (hsound : s.Sound)
    (hs : s.Stocked asks) : t.Stocked asks := by
  intro v hv g hg hi
  rcases h with ⟨found, -, hu⟩ | ha
  · cases hu
    obtain ⟨g₀, hg₀, rfl⟩ := List.mem_map.1 hg
    split at hi
    · rename_i hfound
      rw [if_pos hfound]
      exact hs v hv g₀ hg₀ hi
    · rename_i hother
      rw [if_neg hother]
      exact hs v hv g₀ hg₀ hi
  · obtain ⟨-, rfl, rfl⟩ := addFile_eq_some.1 ha
    rcases List.mem_append.1 hg with hg | hg
    · exact hs v hv g hg hi
    · obtain ⟨g₀, hg₀, hi₀⟩ := hsound.file_mem v hv
      rw [List.mem_singleton.1 hg] at hi
      exact absurd (hi₀.trans hi.symm) (ne_nextId hg₀)

theorem Stocked.addVersion (hs : s.Stocked asks) (hk : s.Keyed) (hf : f ∈ s.files) {content : String}
    (hc : asks f.path content) (revision : Int) :
    (s.addVersion now f.id revision content).2.Stocked asks := by
  intro v hv g hg hi
  rcases List.mem_append.1 hv with hv | hv
  · exact hs v hv g hg hi
  · rw [List.mem_singleton.1 hv] at hi ⊢
    rw [hk.file_ext hg hf hi]
    exact hc

end Store

/-! ## Calls -/

namespace Service

open Program Store
open Markup.Outline (ofMarkup)

/-- Whether all versions and all drafts that are kept are fit for their paths. -/
structure Fitted (read : Markup.OutlineReader) (s : Service) : Prop where
  stocked : s.store.Stocked (Fit read)
  pending : ∀ e ∈ s.pending.entries, Fit read e.2.path e.2.content

variable {terms : Terms} {stale : Int → Prop} {read : Markup.OutlineReader} {settings : Settings}
  {s t : Service} {history : History} {project user : String} {draft : FileDraft}

theorem fit_of_prepare (hread : read.VacantAtNil) {destination content : String}
    (h : prepare read settings destination content = .ok draft) :
    Fit read draft.path draft.content := by
  obtain ⟨d, a, hd, ha, rfl⟩ := prepare_eq_ok.1 h
  exact fit_of_accept hread hd ha

/-- A fit draft is a version afterwards, or it is kept, or nothing has come of it. -/
theorem Fitted.persisted (h : Fitted read s) (hs : s.store.Sound)
    (hd : Fit read draft.path draft.content) {a : Except SiteError Saved}
    (hp : Persisted terms stale project user draft s a t) : Fitted read t := by
  cases hp with
  | unnumbered => exact h
  | failed hr hf =>
    refine ⟨?_, fun e he => ?_⟩
    · rcases hf with rfl | ⟨f, hf⟩
      · exact hr.stocked h.stocked
      · exact hf.stocked (hr.sound hs) (hr.stocked h.stocked)
    · rcases List.mem_cons.1 (s.pending.entries_put_subset _ _ _ he) with rfl | he
      · exact hd
      · exact h.pending e he
  | saved hr hf =>
    have hrecorded := hf.stocked (hr.sound hs) (hr.stocked h.stocked)
    obtain ⟨hmem, -, hpath, -⟩ := hf.mem
    refine ⟨hrecorded.addVersion (hf.sound (hr.sound hs)).toKeyed hmem ?_ _, h.pending⟩
    rw [hpath]
    exact hd

theorem Fitted.save (hread : read.VacantAtNil) (h : Fitted read s) (hs : s.store.Sound)
    {destination content : String} {a : Except SiteError Saved}
    (he : (saveFor read settings project user destination content).Ends terms stale s a t) :
    Fitted read t := by
  obtain ⟨-, rfl, -⟩ | ⟨-, e, -, -, rfl⟩ | ⟨-, draft, hd, hp⟩ := saveFor_ends he
  · exact ⟨h.stocked, h.pending⟩
  · exact ⟨h.stocked, h.pending⟩
  · have hcounted : Fitted read { s with limiter := (s.limiter.check terms.quota terms.now user).2 } :=
      ⟨h.stocked, h.pending⟩
    exact hcounted.persisted hs (fit_of_prepare hread hd) hp

/-- A retry writes what was kept, so it writes what was fit. -/
theorem Fitted.retry (h : Fitted read s) (hs : s.store.Sound) {a : Except SiteError Saved}
    (he : (retryFor settings project user).Ends terms stale s a t) : Fitted read t := by
  have hfound : Fitted read
      { s with pending := (s.pending.get terms.pendingExpiry terms.now user project).2 } :=
    ⟨h.stocked, fun e he => h.pending e (s.pending.entries_get_subset _ _ _ _ he)⟩
  obtain ⟨-, -, rfl⟩ | ⟨save, hsave, hended⟩ := retryFor_ends he
  · exact hfound
  · have hfit : Fit read save.path save.content := h.pending _ (PendingSaves.mem_entries_of_get hsave)
    obtain ⟨e, rfl, hp⟩ | ⟨saved, v, rfl, hp, rfl⟩ := hended
    · exact hfound.persisted hs hfit hp
    · have hv := hfound.persisted hs hfit hp
      exact ⟨hv.stocked, fun e he => hv.pending e (v.pending.entries_discard_subset _ _ he)⟩

/-- One call leaves everything fit. -/
theorem Fitted.outcome (hread : read.VacantAtNil) (h : Fitted read s) (hs : s.store.Sound)
    (o : Occasion) : Fitted read (o.outcome read settings s).2 := by
  have hends : (o.call.program read settings).Ends (.ofSettings settings o.now) (fun _ => True) s
      (o.outcome read settings s).1 (o.outcome read settings s).2 :=
    ends_of_run (o.faults.atTime o.now) fun _ _ => trivial
  obtain ⟨call, now, faults⟩ := o
  cases call with
  | save project user destination content => exact h.save hread hs hends
  | retry project user => exact h.retry hs hends

/-! ## Runs -/

theorem fitted_of_runs (hread : read.VacantAtNil) (hs : s.Healthy) (h : Fitted read s)
    (hr : Runs read settings s history t) : Fitted read t := by
  induction hr with
  | start => exact h
  | call hr o _ ih => exact ih.outcome hread (hs.follows_of_runs hr).sound o

/-- After any calls from the start on, every version has a file, and both the versions and the saves that
are kept have a role that their path tells and content that is fit for it. -/
theorem fit_of_runs (hread : read.VacantAtNil) {ids : IdSupply}
    (hr : Runs read settings (start settings ids) history s) :
    (∀ v ∈ s.store.versions, (∃ f ∈ s.store.files, f.id = v.file) ∧
      ∀ f ∈ s.store.files, f.id = v.file →
        f.role = (Role.ofPath f.path).name ∧ Fit read f.path v.content) ∧
    ∀ e ∈ s.pending.entries,
      e.2.role = (Role.ofPath e.2.path).name ∧ Fit read e.2.path e.2.content := by
  have hstart := healthy_start settings ids
  have hhealthy := (hstart.follows_of_runs hr).toHealthy
  have hempty : Fitted read (start settings ids) :=
    ⟨by simp [Stocked, start], by simp [start, OrderedMap.empty]⟩
  have hfitted := fitted_of_runs hread hstart hempty hr
  refine ⟨fun v hv => ⟨hhealthy.sound.file_mem v hv, fun f hf hi => ?_⟩, fun e he => ?_⟩
  · exact ⟨hhealthy.classified f hf, hfitted.stocked v hv f hf hi⟩
  · exact ⟨hhealthy.pending e he, hfitted.pending e he⟩

/-- A save that was written and a save that failed and is kept. -/
theorem fit_of_runs_failure :
    let s := (failedSave.outcome ofMarkup {} afterFirst).2
    (∃ v ∈ s.store.versions, v.content = "first" ∧ ∃ f ∈ s.store.files, f.id = v.file ∧
      f.path = "pages/home.jsx" ∧ Fit ofMarkup f.path v.content) ∧
    ∃ e ∈ s.pending.entries, e.2.content = "second" ∧ Fit ofMarkup e.2.path e.2.content := by
  have hr : Runs ofMarkup {} unnamed _ (failedSave.outcome ofMarkup {} afterFirst).2 :=
    .call (.call .start firstSave (by decide)) failedSave (by decide)
  obtain ⟨hversions, hpending⟩ := fit_of_runs Markup.vacantAtNil_ofMarkup hr
  obtain ⟨v, hv, hc, f, hf, hi, hp⟩ : ∃ v ∈ (failedSave.outcome ofMarkup {} afterFirst).2.store.versions,
      v.content = "first" ∧ ∃ f ∈ (failedSave.outcome ofMarkup {} afterFirst).2.store.files,
        f.id = v.file ∧ f.path = "pages/home.jsx" := by
    decide +kernel
  obtain ⟨e, he, hsecond⟩ : ∃ e ∈ (failedSave.outcome ofMarkup {} afterFirst).2.pending.entries,
      e.2.content = "second" := by
    decide +kernel
  exact ⟨⟨v, hv, hc, f, hf, hi, hp, ((hversions v hv).2 f hf hi).2⟩, e, he, hsecond, (hpending e he).2⟩

end Service

end VersionedSite
