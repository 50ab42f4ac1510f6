import VersionedSite.Proofs.Service.History
import VersionedSite.Proofs.Service.Writer
import VersionedSite.Proofs.Store.Additions
import VersionedSite.Proofs.Store.Assigned

/-!
# The account of writes

Writes of any drafts to any projects, beside each other and step by step in any order. What they have
done so far is always accounted for (`Serial`): every new revision is of one writer, every file is in one
row, and what is seen beyond what was there has been saved by those who are through.

* `Serial.move`: every step of every writer keeps the account.
* `exists_serial`: so does any run of them.
-/

namespace VersionedSite.Service

open Program Store

namespace Stage

/-- The revision that a write has. -/
def revision? : Stage → Option Revision
  | searching r _ | updating r _ _ | filing r _ | versioning r _ => some r
  | ended (.ok saved) => some saved.revision
  | reading _ | numbering _ _ | keeping | ended (.error _) => none

/-- Whether a write has recorded its file. -/
def hasRecorded : Stage → Bool
  | versioning _ _ | ended (.ok _) => true
  | _ => false

/-- What is known of a write at its stage, when there was one store at the beginning and there is another
one now. -/
def Fits (settings : Settings) (job : Job) (s t : Store) : Stage → Prop
  | reading _ => True
  | numbering _ n => s.greatest job.project < n ∧ n ≤ t.greatest job.project + 1
  | searching _ again => again = false → ∃ id, t.HoldsFile id job.project job.draft.path
  | updating _ _ found => t.HoldsFile found.id job.project job.draft.path
  | filing _ again => again = true
  | versioning _ file => t.HoldsFile file.id job.project job.draft.path
  | keeping => False
  | ended (.ok saved) => saved.draft = job.draft ∧ ∃ id, t.HoldsFile id job.project job.draft.path
  | ended (.error e) => e = job.refusal settings

/-- A write that has no number yet. -/
theorem retrying_fits (settings : Settings) (job : Job) (s t : Store) (left : Nat) :
    (∀ saved, retrying settings job left ≠ ended (.ok saved)) ∧
      (retrying settings job left).revision? = none ∧
      (retrying settings job left).hasRecorded = false ∧
      (retrying settings job left).Fits settings job s t := by
  cases left with
  | zero => exact ⟨by simp [retrying], rfl, rfl, rfl⟩
  | succ left => exact ⟨by simp [retrying], rfl, rfl, trivial⟩

theorem Fits.mono {settings : Settings} {job : Job} {s t u : Store} {σ : Stage}
    (h : σ.Fits settings job s t) (hg : Grows t u) : σ.Fits settings job s u := by
  match σ, h with
  | reading _, _ => trivial
  | numbering _ n, h =>
    have hle := hg.greatest_le job.project
    exact ⟨h.1, by have := h.2; omega⟩
  | searching _ again, h =>
    intro hagain
    obtain ⟨id, hf⟩ := h hagain
    exact ⟨id, hg.files _ _ _ hf⟩
  | updating _ _ found, h => exact hg.files _ _ _ h
  | filing _ again, h => exact h
  | versioning _ file, h => exact hg.files _ _ _ h
  | keeping, h => exact h
  | ended (.ok saved), h =>
    obtain ⟨hd, id, hf⟩ := h
    exact ⟨hd, id, hg.files _ _ _ hf⟩
  | ended (.error e), h => exact h

end Stage

variable {ι : Type} [Fintype ι] [DecidableEq ι] {settings : Settings} {jobs : ι → Job}

/-- The paths that writes have recorded. -/
def recordedPaths (jobs : ι → Job) (stages : ι → Stage) (project path : String) : Bool :=
  decide (∃ i, (stages i).hasRecorded = true ∧ (jobs i).project = project ∧
    (jobs i).draft.path = path)

/-- The account of writes that began at one store and have led to another one: the revisions that they
have, what they have added, what is known of each, and what those that took place resulted in, in the
order in which they did. -/
structure Serial (settings : Settings) (jobs : ι → Job) (s : Store) (stages : ι → Stage) (t : Store)
    (history : History) : Prop where
  assigned : Assigned s (fun i => (jobs i).project) (fun i => (stages i).revision?) t
  adds : Adds s (recordedPaths jobs stages) (savedIn history) t
  fits : ∀ i, (stages i).Fits settings (jobs i) s t
  mem_history : ∀ e, e ∈ history ↔
    ∃ i saved, stages i = .ended (.ok saved) ∧ e = ((jobs i).project, .ok saved)
  nodup : history.Nodup

namespace Serial

variable {s t u : Store} {stages : ι → Stage} {history : History}

omit [Fintype ι] in
theorem revision?_update (stages : ι → Stage) (i : ι) (σ : Stage) :
    (fun j => (Function.update stages i σ j).revision?) =
      Function.update (fun j => (stages j).revision?) i σ.revision? :=
  Function.comp_update Stage.revision? stages i σ

theorem recordedPaths_update {i : ι} {σ : Stage} (h : σ.hasRecorded = (stages i).hasRecorded) :
    recordedPaths jobs (Function.update stages i σ) = recordedPaths jobs stages := by
  have hsame : ∀ j, (Function.update stages i σ j).hasRecorded = (stages j).hasRecorded := by
    rw [Function.forall_update_iff stages fun j σ => σ.hasRecorded = (stages j).hasRecorded]
    exact ⟨h, fun _ _ => rfl⟩
  funext p q
  simp only [recordedPaths, hsame]

theorem recordedPaths_update_of_recorded {i : ι} {σ : Stage} (h : (stages i).hasRecorded = false)
    (hσ : σ.hasRecorded = true) (p q : String) :
    recordedPaths jobs (Function.update stages i σ) p q = true ↔
      recordedPaths jobs stages p q = true ∨ ((jobs i).project = p ∧ (jobs i).draft.path = q) := by
  simp only [recordedPaths, decide_eq_true_eq]
  constructor
  · rintro ⟨j, hj, hk⟩
    by_cases he : j = i
    · exact .inr (he ▸ hk)
    · rw [Function.update_of_ne he] at hj
      exact .inl ⟨j, hj, hk⟩
  · rintro (⟨j, hj, hk⟩ | hk)
    · have he : j ≠ i := by
        rintro rfl
        rw [h] at hj
        cases hj
      exact ⟨j, by rw [Function.update_of_ne he, hj], hk⟩
    · exact ⟨i, by rw [Function.update_self, hσ], hk⟩

/-- What is known of a writer at its new stage, and of the others still. -/
theorem fits_update (h : Serial settings jobs s stages t history) (hgrows : Grows t u) {i : ι}
    {σ : Stage} (hfits : σ.Fits settings (jobs i) s u) :
    ∀ j, (Function.update stages i σ j).Fits settings (jobs j) s u := by
  rw [Function.forall_update_iff stages fun j σ => σ.Fits settings (jobs j) s u]
  exact ⟨hfits, fun j _ => (h.fits j).mono hgrows⟩

/-- A step of a writer that is not through and does not get through by it. -/
theorem update (h : Serial settings jobs s stages t history) {i : ι} {σ : Stage}
    (hi : ∀ saved, stages i ≠ .ended (.ok saved)) (hσ : ∀ saved, σ ≠ .ended (.ok saved))
    (hassigned : Assigned s (fun j => (jobs j).project)
      (Function.update (fun j => (stages j).revision?) i σ.revision?) u)
    (hadds : Adds s (recordedPaths jobs (Function.update stages i σ)) (savedIn history) u)
    (hgrows : Grows t u) (hfits : σ.Fits settings (jobs i) s u) :
    Serial settings jobs s (Function.update stages i σ) u history where
  assigned := by
    rw [revision?_update]
    exact hassigned
  adds := hadds
  fits := h.fits_update hgrows hfits
  mem_history := by
    intro e
    rw [h.mem_history]
    refine exists_congr fun j => exists_congr fun saved => and_congr_left fun _ => ?_
    by_cases he : j = i
    · subst he
      rw [Function.update_self]
      exact ⟨fun hj => absurd hj (hi saved), fun hj => absurd hj (hσ saved)⟩
    · rw [Function.update_of_ne he]
  nodup := h.nodup

/-- A step that leaves the store as it is. -/
theorem quiet (h : Serial settings jobs s stages t history) {i : ι} {σ : Stage}
    (hi : ∀ saved, stages i ≠ .ended (.ok saved)) (hσ : ∀ saved, σ ≠ .ended (.ok saved))
    (hrevision : σ.revision? = (stages i).revision?)
    (hrecorded : σ.hasRecorded = (stages i).hasRecorded)
    (hfits : σ.Fits settings (jobs i) s t) :
    Serial settings jobs s (Function.update stages i σ) t history := by
  refine h.update hi hσ ?_ ?_ (Grows.refl t) hfits
  · rw [hrevision, Function.update_eq_self i (fun j => (stages j).revision?)]
    exact h.assigned
  · rw [recordedPaths_update hrecorded]
    exact h.adds

/-- A writer gets its revision. -/
theorem numbered (h : Serial settings jobs s stages t history) {i : ι} {left : Nat} {number : Int}
    (hi : stages i = .numbering left number) {now : Int} {r : Revision}
    (ha : t.addRevision now (jobs i).project number (jobs i).user = some (r, u)) :
    Serial settings jobs s (Function.update stages i (.searching r true)) u history := by
  have hfits := h.fits i
  rw [hi] at hfits
  obtain ⟨hlt, hle⟩ := hfits
  have hnumber := h.assigned.number_eq ha hlt hle
  refine h.update (by simp [hi]) (by simp) ?_ ?_ (grows_addRevision ha hnumber) ?_
  · exact h.assigned.addRevision (by rw [hi]; rfl) ha hlt hle
  · rw [recordedPaths_update (by rw [hi]; rfl)]
    exact h.adds.addRevision ha
  · intro hfalse
    cases hfalse

/-- A writer has its file recorded. -/
theorem recorded (h : Serial settings jobs s stages t history) {i : ι} {r : Revision}
    {file : FileRecord} (hi : (stages i).revision? = some r)
    (hsaved : ∀ saved, stages i ≠ .ended (.ok saved)) (hrevisions : u.revisions = t.revisions)
    (hadds : Adds s (recordedPaths jobs (Function.update stages i (.versioning r file)))
      (savedIn history) u)
    (hgrows : Grows t u)
    (hfile : u.HoldsFile file.id (jobs i).project (jobs i).draft.path) :
    Serial settings jobs s (Function.update stages i (.versioning r file)) u history := by
  refine h.update hsaved (by simp) ?_ hadds hgrows hfile
  show Assigned _ _ (Function.update _ i (some r)) _
  rw [← hi, Function.update_eq_self i (fun j => (stages j).revision?)]
  exact h.assigned.congr hrevisions

theorem updated (h : Serial settings jobs s stages t history)
    (hrole : ∀ i, (jobs i).draft.role = (Role.ofPath (jobs i).draft.path).name) {i : ι}
    {r : Revision} {again : Bool} {found : FileRecord} (hi : stages i = .updating r again found)
    (now : Int) :
    Serial settings jobs s
      (Function.update stages i
        (.versioning r (t.updateFile now found (jobs i).draft.role).1))
      (t.updateFile now found (jobs i).draft.role).2 history := by
  have hfits := h.fits i
  rw [hi] at hfits
  obtain ⟨f, hf, hid, hp, hq⟩ := hfits
  have hgrows := grows_updateFile t now found (jobs i).draft.role
  refine h.recorded (by rw [hi]; rfl) (by simp [hi]) rfl ?_ hgrows ?_
  · rw [hrole i]
    refine h.adds.updateFile ?_ hf hid hp hq
    exact recordedPaths_update_of_recorded (by rw [hi]; rfl) rfl
  · exact hgrows.files _ _ _ ⟨f, hf, hid, hp, hq⟩

theorem filed (h : Serial settings jobs s stages t history)
    (hrole : ∀ i, (jobs i).draft.role = (Role.ofPath (jobs i).draft.path).name) {i : ι}
    {r : Revision} {again : Bool} (hi : stages i = .filing r again) {now : Int} {f : FileRecord}
    (ha : t.addFile now (jobs i).project (jobs i).draft.path (jobs i).draft.role = some (f, u)) :
    Serial settings jobs s (Function.update stages i (.versioning r f)) u history := by
  refine h.recorded (by rw [hi]; rfl) (by simp [hi]) ?_ ?_ (grows_addFile ha) ?_
  · obtain ⟨-, -, rfl⟩ := addFile_eq_some.1 ha
    rfl
  · rw [hrole i] at ha
    refine h.adds.addFile ?_ ha
    exact recordedPaths_update_of_recorded (by rw [hi]; rfl) rfl
  · obtain ⟨-, rfl, rfl⟩ := addFile_eq_some.1 ha
    exact ⟨_, List.mem_append_right _ (List.mem_singleton_self _), rfl, rfl, rfl⟩

/-- A writer is through. -/
theorem saved (h : Serial settings jobs s stages t history)
    (hrole : ∀ i, (jobs i).draft.role = (Role.ofPath (jobs i).draft.path).name) {i : ι}
    {r : Revision} {file : FileRecord} (hi : stages i = .versioning r file) (now : Int) :
    Serial settings jobs s
      (Function.update stages i (.ended (.ok { revision := r, draft := (jobs i).draft })))
      (t.addVersion now file.id r.id (jobs i).draft.content).2
      (history ++ [((jobs i).project, .ok { revision := r, draft := (jobs i).draft })]) := by
  have hfits := h.fits i
  rw [hi] at hfits
  obtain ⟨f, hf, hid, hp, hq⟩ := hfits
  obtain ⟨hr, hrp, hlt⟩ := h.assigned.mem i r (by rw [hi]; rfl)
  have hrecorded : recordedPaths jobs stages f.project f.path = true := by
    rw [recordedPaths, decide_eq_true_eq]
    exact ⟨i, by rw [hi]; rfl, hp.symm, hq.symm⟩
  have hgrows : Grows t (t.addVersion now file.id r.id (jobs i).draft.content).2 :=
    ⟨fun _ => Int.le_refl _, fun _ _ _ hf => hf⟩
  constructor
  case assigned =>
    rw [revision?_update]
    show Assigned _ _ (Function.update _ i (some r)) _
    rw [show some r = (stages i).revision? by rw [hi]; rfl,
      Function.update_eq_self i (fun j => (stages j).revision?)]
    exact h.assigned.congr rfl
  case adds =>
    rw [recordedPaths_update (by rw [hi]; rfl), ← hid]
    refine h.adds.addVersion hf hr (hrp.trans hp.symm) hrecorded fun p => ?_
    rw [savedIn_concat, hp, hq, ← hrole i]
    by_cases he : (jobs i).project = p <;> simp [savedBy, he, Saved.visible]
  case fits => exact h.fits_update hgrows ⟨rfl, f.id, f, hf, rfl, hp, hq⟩
  case mem_history =>
    intro e
    rw [List.mem_append, List.mem_singleton, h.mem_history]
    constructor
    · rintro (⟨j, saved, hj, rfl⟩ | rfl)
      · have he : j ≠ i := by
          rintro rfl
          rw [hi] at hj
          cases hj
        exact ⟨j, saved, by rw [Function.update_of_ne he, hj], rfl⟩
      · exact ⟨i, _, Function.update_self _ _ _, rfl⟩
    · rintro ⟨j, saved, hj, rfl⟩
      by_cases he : j = i
      · subst he
        rw [Function.update_self] at hj
        cases hj
        exact .inr rfl
      · rw [Function.update_of_ne he] at hj
        exact .inl ⟨j, saved, hj, rfl⟩
  case nodup =>
    rw [← List.concat_eq_append]
    refine h.nodup.concat fun hmem => ?_
    -- Another writer would have the same revision.
    obtain ⟨j, saved, hj, he⟩ := (h.mem_history _).1 hmem
    simp only [Prod.mk.injEq, Except.ok.injEq] at he
    have hsame : i = j := h.assigned.distinct i j r (by rw [hi]; rfl) (by rw [hj, ← he.2]; rfl)
    rw [← hsame, hi] at hj
    cases hj

/-- Every step of a writer keeps the account. -/
theorem move (h : Serial settings jobs s stages t history)
    (hrole : ∀ i, (jobs i).draft.role = (Role.ofPath (jobs i).draft.path).name) (i : ι)
    (terms : Terms) {service : Service} (ht : service.store = t) :
    ∃ history',
      Serial settings jobs s
        (Function.update stages i ((stages i).advance settings (jobs i) terms service).1)
        ((stages i).advance settings (jobs i) terms service).2.store history' := by
  subst ht
  have hfits := h.fits i
  cases hi : stages i with
  | reading left =>
    refine ⟨history, h.quiet (by simp [hi]) (by simp [Stage.advance]) (by rw [hi]; rfl)
      (by rw [hi]; rfl) ?_⟩
    have hle := h.assigned.greatest_le (jobs i).project
    exact ⟨by omega, Int.le_refl _⟩
  | numbering left number =>
    rw [Stage.advance]
    cases ha : service.store.addRevision terms.now (jobs i).project number (jobs i).user with
    | some row => exact ⟨history, h.numbered hi ha⟩
    | none =>
      obtain ⟨hsaved, hrevision, hrecorded, hfits⟩ := Stage.retrying_fits settings (jobs i) s
        service.store left
      refine ⟨history, h.quiet (by simp [hi]) hsaved ?_ ?_ hfits⟩
      · rw [hrevision, hi]
        rfl
      · rw [hrecorded, hi]
        rfl
  | searching r again =>
    rw [Stage.advance]
    cases hf : service.store.file? (jobs i).project (jobs i).draft.path with
    | some found =>
      refine ⟨history, h.quiet (by simp [hi]) (by simp) (by rw [hi]; rfl) (by rw [hi]; rfl) ?_⟩
      obtain ⟨hm, hp, hq⟩ := h.adds.sound.file?_eq_some.1 hf
      exact ⟨found, hm, rfl, hp, hq⟩
    | none =>
      refine ⟨history, h.quiet (by simp [hi]) (by simp) (by rw [hi]; rfl) (by rw [hi]; rfl) ?_⟩
      rw [hi] at hfits
      cases again with
      | true => rfl
      | false =>
        obtain ⟨id, f, hm, -, hp, hq⟩ := hfits rfl
        cases hf.symm.trans (h.adds.sound.file?_eq_some.2 ⟨hm, hp, hq⟩)
  | updating r again found => exact ⟨history, h.updated hrole hi terms.now⟩
  | filing r again =>
    rw [Stage.advance]
    cases ha : service.store.addFile terms.now (jobs i).project (jobs i).draft.path
      (jobs i).draft.role with
    | some row => exact ⟨history, h.filed hrole hi ha⟩
    | none =>
      rw [hi] at hfits
      obtain rfl : again = true := hfits
      refine ⟨history, h.quiet (by simp [hi]) (by simp) (by rw [hi]; rfl) (by rw [hi]; rfl) ?_⟩
      obtain ⟨f, hm, hp, hq⟩ := addFile_eq_none.1 ha
      exact fun _ => ⟨f.id, f, hm, rfl, hp, hq⟩
  | versioning r file => exact ⟨_, h.saved hrole hi terms.now⟩
  | keeping =>
    rw [hi] at hfits
    exact hfits.elim
  | ended result =>
    refine ⟨history, ?_⟩
    rw [Stage.advance, ← hi, Function.update_eq_self]
    exact h

end Serial

/-! ## Runs -/

/-- Writers that begin beside each other. -/
def writers (settings : Settings) (service : Service) (jobs : ι → Job) :
    Crowd ι (Except SiteError Saved) :=
  { programs := fun i => (jobs i).program settings, service }

omit [DecidableEq ι] in
theorem serial_start (settings : Settings) (jobs : ι → Job) {s : Store} (hs : s.Sound) :
    Serial settings jobs s
      (fun i => .retrying settings (jobs i) settings.revisionAllocationAttempts.toNat) s [] := by
  have hretrying := fun i => Stage.retrying_fits settings (jobs i) s s
    settings.revisionAllocationAttempts.toNat
  constructor
  case assigned =>
    simp only [(hretrying _).2.1]
    exact assigned_self s _
  case adds =>
    have hnone : recordedPaths jobs (fun i =>
        .retrying settings (jobs i) settings.revisionAllocationAttempts.toNat) =
        fun _ _ => false := by
      funext p q
      simp [recordedPaths, (hretrying _).2.2.1]
    rw [hnone]
    exact hs.adds
  case fits => exact fun i => (hretrying i).2.2.2
  case mem_history =>
    intro e
    constructor
    · intro he
      cases he
    · rintro ⟨i, saved, hi, -⟩
      exact absurd hi ((hretrying i).1 saved)
  case nodup => exact List.nodup_nil

/-- The account of any moves of writers and of others who write nothing. -/
theorem exists_serial {service : Service} (hs : service.store.Sound)
    (hrole : ∀ i, (jobs i).draft.role = (Role.ofPath (jobs i).draft.path).name)
    {schedule : List (Move ι)} (hschedule : ∀ m ∈ schedule, m.Foreign fun st => st.isWrite = false) :
    let c := (writers settings service jobs).run schedule
    ∃ stages history, (∀ i, c.programs i = (stages i).program settings (jobs i)) ∧
      Serial settings jobs service.store stages c.service.store history := by
  refine Crowd.run_induction (P := fun c => ∃ stages history,
    (∀ i, c.programs i = (stages i).program settings (jobs i)) ∧
      Serial settings jobs service.store stages c.service.store history)
    (fun c m hm h => ?_) ?_ hschedule
  case refine_2 =>
    exact ⟨_, [], fun i => (jobs i).program_eq settings, serial_start settings jobs hs⟩
  obtain ⟨stages, history, hprograms, h⟩ := h
  cases m with
  | foreign change =>
    obtain ⟨st, terms, d, hst, hchange⟩ := hm c.service
    refine ⟨stages, history, hprograms, ?_⟩
    show Serial settings jobs service.store stages (change c.service).store _
    rw [hchange, store_perform hst]
    exact h
  | own i terms d =>
    obtain rfl : d = none := hm
    obtain ⟨history', h'⟩ := h.move hrole i terms rfl
    have hadvance := Stage.advance_program settings (jobs i) terms (stages i) c.service
    rw [← hprograms i] at hadvance
    refine ⟨Function.update stages i ((stages i).advance settings (jobs i) terms c.service).1,
      history', fun j => ?_, ?_⟩
    · show Function.update c.programs i ((c.programs i).advance terms c.service).1 j = _
      rw [hadvance]
      by_cases he : j = i
      · subst he
        rw [Function.update_self, Function.update_self]
      · rw [Function.update_of_ne he, Function.update_of_ne he, hprograms j]
    · show Serial settings jobs service.store _
        ((c.programs i).advance terms c.service).2.store history'
      rw [hadvance]
      exact h'

end VersionedSite.Service
