import VersionedSite.Proofs.Service.Step
import VersionedSite.Proofs.Store.Written
import VersionedSite.Service.Generation

/-!
# Outcomes of programs

What a program can come to when anything may befall its steps (`Program.Ends`); a run with given faults
comes to one of that (`ends_of_run`). Readings of the next number may be outdated; which numbers they
may then answer is a parameter.

The outcomes of writing are told with what they leave of the service: `Persisted` has one case for a
write that did not get a revision, one for a write that failed afterwards, and one for a write that took
place.

* `ends_bind`: a program in sequence comes to what its parts come to.
* `allocate_ends`, `recordFile_ends`, `writeDraft_ends`, `persist_ends`: what the writing of a draft
  comes to, part by part.
* `saveFor_ends`, `retryFor_ends`: what saves and retries come to.
* `saveOwned_ends`, `saveRough_ends`: what they come to behind the look at who owns the project.
-/

namespace VersionedSite.Service

namespace Program

variable {α β : Type}

/-- Whether a program may come to a result and a state from a state. An outdated number that is read is
one of `stale`. -/
def Ends (terms : Terms) (stale : Int → Prop) : Program α → Service → α → Service → Prop
  | done b, s, a, t => b = a ∧ s = t
  | step st next, s, a, t =>
    ∃ d : Option Disturbance, (∀ n, d = some (.outdated n) → stale n) ∧
      (next (s.perform terms d st).1).Ends terms stale (s.perform terms d st).2 a t

variable {terms : Terms} {stale : Int → Prop} {s t : Service}

theorem ends_bind {p : Program α} {f : α → Program β} {b : β} :
    (p >>= f).Ends terms stale s b t ↔
      ∃ a u, p.Ends terms stale s a u ∧ (f a).Ends terms stale u b t := by
  change (p.bind f).Ends terms stale s b t ↔ _
  induction p generalizing s with
  | done a =>
    constructor
    · intro h
      exact ⟨a, s, ⟨rfl, rfl⟩, h⟩
    · rintro ⟨_, _, ⟨rfl, rfl⟩, h⟩
      exact h
  | step st next ih =>
    constructor
    · rintro ⟨d, hd, h⟩
      obtain ⟨a, u, hp, hf⟩ := (ih _).1 h
      exact ⟨a, u, ⟨d, hd, hp⟩, hf⟩
    · rintro ⟨a, u, ⟨d, hd, hp⟩, hf⟩
      exact ⟨d, hd, (ih _).2 ⟨a, u, hp, hf⟩⟩

theorem ends_take {st : Step} {a : st.Answer} :
    (take st).Ends terms stale s a t ↔
      ∃ d : Option Disturbance, (∀ n, d = some (.outdated n) → stale n) ∧
        s.perform terms d st = (a, t) := by
  simp only [take, Ends, Prod.ext_iff]

theorem mem_outdated_of_next {faults : Faults} {st : Step} {n : Int}
    (h : (faults.next st).1 = some (.outdated n)) : n ∈ faults.outdated := by
  unfold Faults.next at h
  split at h
  · cases h
  · split at h
    · cases h
    · split at h <;> cases h
      simp_all

theorem outdated_next_subset (faults : Faults) (st : Step) :
    (faults.next st).2.outdated ⊆ faults.outdated := by
  intro n hn
  unfold Faults.next at hn
  split at hn
  · exact hn
  · split at hn
    · exact hn
    · split at hn <;> simp_all

/-- What a program comes to with certain faults it may come to. -/
theorem ends_of_run {p : Program α} (faults : Faults) (hf : ∀ n ∈ faults.outdated, stale n) :
    p.Ends terms stale s (p.run terms faults s).1 (p.run terms faults s).2.2 := by
  induction p generalizing faults s with
  | done a => exact ⟨rfl, rfl⟩
  | step st next ih =>
    refine ⟨(faults.next st).1, fun n hn => hf n (mem_outdated_of_next hn), ?_⟩
    exact ih _ _ fun n hn => hf n (outdated_next_subset faults st hn)

end Program

open Program Store

variable {terms : Terms} {stale : Int → Prop} {s t : Service} {read : Markup.OutlineReader}
  {settings : Settings} {project user path role : String}

/-! ## Steps -/

theorem readNextNumber_ends {n : Int}
    (h : (take (.readNextNumber project)).Ends terms stale s n t) :
    t = s ∧ (n = s.store.greatest project + 1 ∨ stale n) := by
  obtain ⟨d, hd, hp⟩ := ends_take.1 h
  simp only [perform] at hp
  split at hp <;> cases hp
  · exact ⟨rfl, .inr (hd _ rfl)⟩
  · exact ⟨rfl, .inl rfl⟩

/-- An insertion takes place, or nothing happens. -/
theorem inserted_cases {α : Type} {row : Option (α × Store)} {a : Except WriteFault α}
    (h : s.inserted row = (a, t)) :
    (row = none ∧ a = .error .taken ∧ t = s) ∨
      ∃ r store, row = some (r, store) ∧ a = .ok r ∧ t = { s with store } := by
  cases row with
  | none =>
    cases h
    exact .inl ⟨rfl, rfl, rfl⟩
  | some r =>
    cases h
    exact .inr ⟨r.1, r.2, rfl, rfl, rfl⟩

theorem insertRevision_ends {number : Int} {a : Except WriteFault Revision}
    (h : (take (.insertRevision project number user)).Ends terms stale s a t) :
    (∃ fault, a = .error fault ∧ t = s) ∨
      ∃ r store, a = .ok r ∧ s.store.addRevision terms.now project number user = some (r, store) ∧
        t = { s with store } := by
  obtain ⟨d, -, hp⟩ := ends_take.1 h
  simp only [perform] at hp
  split at hp
  · cases hp
    exact .inl ⟨_, rfl, rfl⟩
  · obtain ⟨-, ha, ht⟩ | ⟨r, store, hr, ha, ht⟩ := inserted_cases hp
    · exact .inl ⟨_, ha, ht⟩
    · exact .inr ⟨r, store, ha, hr, ht⟩

theorem findFile_ends {a : Except WriteFault (Option FileRecord)}
    (h : (take (.findFile project path)).Ends terms stale s a t) :
    t = s ∧ ∀ f, a = .ok (some f) → s.store.file? project path = some f := by
  obtain ⟨d, -, hp⟩ := ends_take.1 h
  simp only [perform] at hp
  split at hp <;> cases hp <;> exact ⟨rfl, by simp⟩

theorem insertFile_ends {a : Except WriteFault FileRecord}
    (h : (take (.insertFile project path role)).Ends terms stale s a t) :
    (∃ fault, a = .error fault ∧ t = s) ∨
      ∃ f store, a = .ok f ∧ s.store.addFile terms.now project path role = some (f, store) ∧
        t = { s with store } := by
  obtain ⟨d, -, hp⟩ := ends_take.1 h
  simp only [perform] at hp
  split at hp
  · cases hp
    exact .inl ⟨_, rfl, rfl⟩
  · cases hp
    exact .inl ⟨_, rfl, rfl⟩
  · obtain ⟨-, ha, ht⟩ | ⟨f, store, hf, ha, ht⟩ := inserted_cases hp
    · exact .inl ⟨_, ha, ht⟩
    · exact .inr ⟨f, store, ha, hf, ht⟩

theorem updateFile_ends {found : FileRecord} {a : Except WriteFault FileRecord}
    (h : (take (.updateFile found role)).Ends terms stale s a t) :
    (∃ fault, a = .error fault ∧ t = s) ∨
      ∃ f store, a = .ok f ∧ s.store.updateFile terms.now found role = (f, store) ∧
        t = { s with store } := by
  obtain ⟨d, -, hp⟩ := ends_take.1 h
  simp only [perform] at hp
  split at hp <;> cases hp
  · exact .inl ⟨_, rfl, rfl⟩
  · exact .inl ⟨_, rfl, rfl⟩
  · exact .inr ⟨_, _, rfl, rfl, rfl⟩

theorem insertVersion_ends {file revision : Int} {content : String} {a : Except WriteFault Version}
    (h : (take (.insertVersion file revision content)).Ends terms stale s a t) :
    (∃ fault, a = .error fault ∧ t = s) ∨
      ∃ v store, a = .ok v ∧ s.store.addVersion terms.now file revision content = (v, store) ∧
        t = { s with store } := by
  obtain ⟨d, -, hp⟩ := ends_take.1 h
  simp only [perform] at hp
  split at hp <;> cases hp
  · exact .inl ⟨_, rfl, rfl⟩
  · exact .inl ⟨_, rfl, rfl⟩
  · exact .inr ⟨_, _, rfl, rfl, rfl⟩

/-! ## Writing -/

theorem allocate_ends {attempts : Nat} {tried : Int} {a : Except AllocationFault Revision}
    (h : (allocate project user attempts tried).Ends terms stale s a t) :
    (∃ fault, a = .error fault ∧ t = s) ∨
      ∃ r store, a = .ok r ∧ Allocates terms.now stale project user s.store r store ∧
        t = { s with store } := by
  induction attempts generalizing tried with
  | zero =>
    obtain ⟨rfl, rfl⟩ := h
    exact .inl ⟨_, rfl, rfl⟩
  | succ attempts ih =>
    rw [allocate, ends_bind] at h
    obtain ⟨n, u, hn, h⟩ := h
    obtain ⟨rfl, hn⟩ := readNextNumber_ends hn
    rw [ends_bind] at h
    obtain ⟨b, u, hi, h⟩ := h
    obtain ⟨fault, rfl, rfl⟩ | ⟨r, store, rfl, hr, rfl⟩ := insertRevision_ends hi
    · cases fault with
      | taken => exact ih h
      | broken =>
        obtain ⟨rfl, rfl⟩ := h
        exact .inl ⟨_, rfl, rfl⟩
      | untimely changing =>
        obtain ⟨rfl, rfl⟩ := h
        exact .inl ⟨_, rfl, rfl⟩
    · obtain ⟨rfl, rfl⟩ := h
      exact .inr ⟨r, store, rfl, ⟨n, hn, hr⟩, rfl⟩

theorem recordFileOnce_ends {a : Except WriteFault FileRecord}
    (h : (recordFileOnce project path role).Ends terms stale s a t) :
    (∃ fault, a = .error fault ∧ t = s) ∨
      ∃ f store, a = .ok f ∧ Records terms.now project path role s.store f store ∧
        t = { s with store } := by
  rw [recordFileOnce, ends_bind] at h
  obtain ⟨b, u, hb, h⟩ := h
  obtain ⟨rfl, hb⟩ := findFile_ends hb
  match b, hb, h with
  | .error fault, _, h =>
    obtain ⟨rfl, rfl⟩ := h
    exact .inl ⟨_, rfl, rfl⟩
  | .ok (some found), hb, h =>
    obtain hf | ⟨f, store, ha, hu, ht⟩ := updateFile_ends h
    · exact .inl hf
    · exact .inr ⟨f, store, ha, .inl ⟨found, hb found rfl, hu⟩, ht⟩
  | .ok none, _, h =>
    obtain hf | ⟨f, store, ha, hi, ht⟩ := insertFile_ends h
    · exact .inl hf
    · exact .inr ⟨f, store, ha, .inr hi, ht⟩

theorem recordFile_ends {a : Except WriteFault FileRecord}
    (h : (recordFile project path role).Ends terms stale s a t) :
    (∃ fault, a = .error fault ∧ t = s) ∨
      ∃ f store, a = .ok f ∧ Records terms.now project path role s.store f store ∧
        t = { s with store } := by
  rw [recordFile, ends_bind] at h
  obtain ⟨b, u, hb, h⟩ := h
  obtain ⟨fault, rfl, rfl⟩ | ⟨f, store, rfl, hf, rfl⟩ := recordFileOnce_ends hb
  · cases fault with
    | taken => exact recordFileOnce_ends h
    | broken =>
      obtain ⟨rfl, rfl⟩ := h
      exact .inl ⟨_, rfl, rfl⟩
    | untimely changing =>
      obtain ⟨rfl, rfl⟩ := h
      exact .inl ⟨_, rfl, rfl⟩
  · obtain ⟨rfl, rfl⟩ := h
    exact .inr ⟨f, store, rfl, hf, rfl⟩

/-- A write that fails may have recorded its file, but no version of it. -/
theorem writeDraft_ends {draft : FileDraft} {revision : Revision} {a : Except WriteFault Version}
    (h : (writeDraft project draft revision).Ends terms stale s a t) :
    (∃ fault, a = .error fault ∧ ∃ store, t = { s with store } ∧
      (store = s.store ∨ ∃ f, Records terms.now project draft.path draft.role s.store f store)) ∨
      ∃ v f store, a = .ok v ∧ Records terms.now project draft.path draft.role s.store f store ∧
        t = { s with
          store := (store.addVersion terms.now f.id revision.id draft.content).2 } := by
  rw [writeDraft, ends_bind] at h
  obtain ⟨b, u, hb, h⟩ := h
  obtain ⟨fault, rfl, rfl⟩ | ⟨f, store, rfl, hf, rfl⟩ := recordFile_ends hb
  · obtain ⟨rfl, rfl⟩ := h
    exact .inl ⟨_, rfl, _, rfl, .inl rfl⟩
  · obtain ⟨fault, rfl, rfl⟩ | ⟨v, store', rfl, hv, rfl⟩ := insertVersion_ends h
    · exact .inl ⟨_, rfl, store, rfl, .inr ⟨f, hf⟩⟩
    · refine .inr ⟨v, f, store, rfl, hf, ?_⟩
      rw [hv]

/-- What the writing of a draft at a new revision comes to. -/
inductive Persisted (terms : Terms) (stale : Int → Prop) (project user : String) (draft : FileDraft)
    (s : Service) : Except SiteError Saved → Service → Prop where
  /-- There is no revision for it, and nothing has changed. -/
  | unnumbered (e : SiteError) (h : e.kind = .allocationFailed ∨ e.kind = .general) :
      Persisted _ _ _ _ _ s (.error e) s
  /-- There is a revision, but no version at it; the draft is kept. -/
  | failed {r : Revision} {numbered recorded : Store}
      (hr : Allocates terms.now stale project user s.store r numbered)
      (hf : recorded = numbered ∨
        ∃ f, Records terms.now project draft.path draft.role numbered f recorded) :
      Persisted _ _ _ _ _ s (.error (.writeFailed draft.path))
        { s with
          store := recorded
          pending := s.pending.put user project { draft with since := terms.now } }
  /-- There is a version at the revision. -/
  | saved {r : Revision} {f : FileRecord} {numbered recorded : Store}
      (hr : Allocates terms.now stale project user s.store r numbered)
      (hf : Records terms.now project draft.path draft.role numbered f recorded) :
      Persisted _ _ _ _ _ s (.ok { revision := r, draft })
        { s with store := (recorded.addVersion terms.now f.id r.id draft.content).2 }

theorem persist_ends {draft : FileDraft} {a : Except SiteError Saved}
    (h : (persist settings project user draft).Ends terms stale s a t) :
    Persisted terms stale project user draft s a t := by
  rw [persist, ends_bind] at h
  obtain ⟨b, u, hb, h⟩ := h
  obtain ⟨fault, rfl, rfl⟩ | ⟨r, store, rfl, hr, rfl⟩ := allocate_ends hb
  · cases fault with
    | exhausted tried =>
      obtain ⟨rfl, rfl⟩ := h
      exact .unnumbered _ (.inl rfl)
    | failed fault =>
      obtain ⟨rfl, rfl⟩ := h
      exact .unnumbered _ (.inr rfl)
  · rw [ends_bind] at h
    obtain ⟨c, u, hc, h⟩ := h
    obtain ⟨fault, rfl, store', rfl, hs⟩ | ⟨v, f, store', rfl, hf, rfl⟩ := writeDraft_ends hc
    · rw [ends_bind] at h
      obtain ⟨_, u, hk, h⟩ := h
      obtain ⟨d, -, hk⟩ := ends_take.1 hk
      obtain ⟨rfl, rfl⟩ := h
      cases hk
      exact .failed hr hs
    · obtain ⟨rfl, rfl⟩ := h
      exact .saved hr hf

/-! ## Saves and retries -/

/-- What is wrong with a destination or a content is neither a limit nor a write that failed. -/
theorem kind_of_prepare_error {destination content : String} {e : SiteError}
    (h : prepare read settings destination content = .error e) :
    e.kind ≠ .rateLimited ∧ e.kind ≠ .persistenceFailed := by
  unfold prepare at h
  cases hd : Destination.resolve destination with
  | error e' =>
    rw [hd] at h
    cases h
    unfold Destination.resolve at hd
    split at hd <;> cases hd
    exact ⟨by simp [SiteError.kind], by simp [SiteError.kind]⟩
  | ok d =>
    cases ha : Destination.accept read d content settings.maxContentBytes with
    | ok a => simp [hd, ha, Bind.bind, Except.bind, Pure.pure, Except.pure] at h
    | error e' =>
      obtain rfl : e' = e := by simpa [hd, ha, Bind.bind, Except.bind] using h
      unfold Destination.accept at ha
      dsimp only at ha
      split at ha <;> cases ha
      unfold Destination.errorOf
      dsimp only
      split
      · exact ⟨by simp [SiteError.kind], by simp [SiteError.kind]⟩
      · split <;> exact ⟨by simp [SiteError.kind], by simp [SiteError.kind]⟩

/-- A save is counted and prepared; only what is prepared is written. -/
theorem saveFor_ends {destination content : String} {a : Except SiteError Saved}
    (h : (saveFor read settings project user destination content).Ends terms stale s a t) :
    let (decision, limiter) := s.limiter.check terms.quota terms.now user
    (decision.allowed = false ∧ t = { s with limiter } ∧
      a = .error (.rateLimited decision.resetAt (decision.retryAfter terms.now))) ∨
    (decision.allowed = true ∧ ∃ e, prepare read settings destination content = .error e ∧ a = .error e ∧
      t = { s with limiter }) ∨
    (decision.allowed = true ∧ ∃ draft, prepare read settings destination content = .ok draft ∧
      Persisted terms stale project user draft { s with limiter } a t) := by
  rw [saveFor, ends_bind] at h
  obtain ⟨b, u, hb, h⟩ := h
  obtain ⟨d, -, hb⟩ := ends_take.1 hb
  simp only [perform, Prod.mk.injEq] at hb
  obtain ⟨rfl, rfl⟩ := hb
  dsimp only at h ⊢
  split at h
  · rename_i hn
    obtain ⟨rfl, rfl⟩ := h
    exact .inl ⟨by simpa using hn, rfl, rfl⟩
  · rename_i hn
    have hallowed : (s.limiter.check terms.quota terms.now user).1.allowed = true := by
      simpa using hn
    split at h
    · rename_i e he
      obtain ⟨rfl, rfl⟩ := h
      exact .inr (.inl ⟨hallowed, e, he, rfl, rfl⟩)
    · rename_i draft hd
      exact .inr (.inr ⟨hallowed, draft, hd, persist_ends h⟩)

/-- A retry writes what is pending, and forgets it only once it is written. -/
theorem retryFor_ends {a : Except SiteError Saved}
    (h : (retryFor settings project user).Ends terms stale s a t) :
    let (found, pending) := s.pending.get terms.pendingExpiry terms.now user project
    (found = none ∧ a = .error (.nothingPending project) ∧ t = { s with pending }) ∨
    ∃ save, found = some save ∧
      ((∃ e, a = .error e ∧
        Persisted terms stale project user save.toFileDraft { s with pending } (.error e) t) ∨
      ∃ saved u, a = .ok saved ∧
        Persisted terms stale project user save.toFileDraft { s with pending } (.ok saved) u ∧
        t = { u with pending := u.pending.discard user project }) := by
  rw [retryFor, ends_bind] at h
  obtain ⟨b, u, hb, h⟩ := h
  obtain ⟨d, -, hb⟩ := ends_take.1 hb
  simp only [perform, Prod.mk.injEq] at hb
  obtain ⟨rfl, rfl⟩ := hb
  dsimp only
  split at h
  · rename_i hn
    obtain ⟨rfl, rfl⟩ := h
    exact .inl ⟨hn, rfl, rfl⟩
  · rename_i save hs
    refine .inr ⟨save, hs, ?_⟩
    rw [ends_bind] at h
    obtain ⟨b, v, hb, h⟩ := h
    have hp := persist_ends hb
    cases b with
    | error e =>
      obtain ⟨rfl, rfl⟩ := h
      exact .inl ⟨e, rfl, hp⟩
    | ok saved =>
      rw [ends_bind] at h
      obtain ⟨_, w, hw, h⟩ := h
      obtain ⟨d, -, hw⟩ := ends_take.1 hw
      obtain ⟨rfl, rfl⟩ := h
      cases hw
      exact .inr ⟨saved, v, rfl, hp, rfl⟩

/-! ## Saves of somebody's own -/

theorem readLatest_ends {latest : Option Revision}
    (h : (take (.readLatest project)).Ends terms stale s latest t) :
    latest = s.store.latest? project ∧ t = s := by
  obtain ⟨d, -, hp⟩ := ends_take.1 h
  cases hp
  exact ⟨rfl, rfl⟩

/-- A save of somebody else's project is refused before anything is done. -/
theorem saveOwned_ends {destination content : String} {a : Except SiteError Saved}
    (h : (saveOwned read settings project user destination content).Ends terms stale s a t) :
    (∃ e, denial? (s.store.latest? project) project user = some e ∧ a = .error e ∧ t = s) ∨
    (denial? (s.store.latest? project) project user = none ∧
      (saveFor read settings project user destination content).Ends terms stale s a t) := by
  rw [saveOwned, ends_bind] at h
  obtain ⟨latest, u, hl, h⟩ := h
  obtain ⟨rfl, rfl⟩ := readLatest_ends hl
  cases hd : denial? (u.store.latest? project) project user with
  | some e =>
    rw [hd] at h
    obtain ⟨rfl, rfl⟩ := h
    exact .inl ⟨e, rfl, rfl, rfl⟩
  | none =>
    rw [hd] at h
    exact .inr ⟨rfl, h⟩

/-- A save of texts that cannot be written leaves at most a revision. -/
theorem saveRough_ends {destination content : Text.Points} {a : Except SiteError Saved}
    (h : (saveRough read settings project user destination content).Ends terms stale s a t) :
    (∃ e, denial? (s.store.latest? project) project user = some e ∧ a = .error e ∧ t = s) ∨
    (denial? (s.store.latest? project) project user = none ∧ (∃ e, a = .error e) ∧
      ∃ limiter store, t = { s with limiter, store } ∧
        (store = s.store ∨ ∃ r, Allocates terms.now stale project user s.store r store)) := by
  rw [saveRough, ends_bind] at h
  obtain ⟨latest, u, hl, h⟩ := h
  obtain ⟨rfl, rfl⟩ := readLatest_ends hl
  cases hd : denial? (u.store.latest? project) project user with
  | some e =>
    rw [hd] at h
    obtain ⟨rfl, rfl⟩ := h
    exact .inl ⟨e, rfl, rfl, rfl⟩
  | none =>
    rw [hd] at h
    refine .inr ⟨rfl, ?_⟩
    dsimp only at h
    rw [ends_bind] at h
    obtain ⟨b, v, hb, h⟩ := h
    obtain ⟨d, -, hb⟩ := ends_take.1 hb
    simp only [perform, Prod.mk.injEq] at hb
    obtain ⟨rfl, rfl⟩ := hb
    have hcounted : ∀ e : SiteError, (Program.done (.error e)).Ends terms stale
        { u with limiter := (u.limiter.check terms.quota terms.now user).2 } a t →
        (∃ e, a = .error e) ∧ ∃ limiter store, t = { u with limiter, store } ∧
          (store = u.store ∨ ∃ r, Allocates terms.now stale project user u.store r store) := by
      rintro e ⟨rfl, rfl⟩
      exact ⟨⟨e, rfl⟩, _, _, rfl, .inl rfl⟩
    dsimp only at h
    split at h
    · exact hcounted _ h
    · split at h
      · exact hcounted _ h
      · exact hcounted _ h
      · split at h
        · exact hcounted _ h
        · exact hcounted _ h
        · rw [ends_bind] at h
          obtain ⟨c, w, hc, h⟩ := h
          obtain ⟨fault, rfl, rfl⟩ | ⟨r, store, rfl, hr, rfl⟩ := allocate_ends hc
          · cases fault <;> exact hcounted _ h
          · obtain ⟨rfl, rfl⟩ := h
            exact ⟨⟨_, rfl⟩, _, _, rfl, .inr ⟨r, hr⟩⟩

end VersionedSite.Service
