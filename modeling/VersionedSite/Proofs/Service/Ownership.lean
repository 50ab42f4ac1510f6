import VersionedSite.Proofs.PendingSaves
import VersionedSite.Proofs.Service.Outcome
import VersionedSite.Service.Publishing

/-!
# Who owns what

Nothing stores who owns a project. It is read off the latest revision, and a retry does not ask for it at
all. So whatever names a project and a user has to name the owner: the revisions themselves, the
publications, and the saves that are kept (`Owned`). Whatever is called, it stays so.

* `BelongsTo.denial?_eq`, `BelongsTo.ownedLatest_eq`: a project is closed to everybody but its owner.
* `Owned.persisted`: what is written for an owner.
* `Owned.save`, `Owned.saveRough`, `Owned.retry`, `Owned.pin`: what calls keep.
-/

namespace VersionedSite

namespace Store

/-- Whether all revisions that a project has are a user's. -/
def OpenTo (s : Store) (project user : String) : Prop :=
  ∀ r ∈ s.revisions, r.project = project → r.user = user

/-- Whether a project has revisions and all of them are a user's. -/
structure BelongsTo (s : Store) (project user : String) : Prop where
  exists_revision : ∃ r ∈ s.revisions, r.project = project
  openTo : s.OpenTo project user

instance (s : Store) (project user : String) : Decidable (s.OpenTo project user) :=
  inferInstanceAs (Decidable (∀ r ∈ s.revisions, r.project = project → r.user = user))

instance (s : Store) (project user : String) : Decidable (s.BelongsTo project user) :=
  decidable_of_iff ((∃ r ∈ s.revisions, r.project = project) ∧ s.OpenTo project user)
    ⟨fun ⟨hr, ho⟩ => ⟨hr, ho⟩, fun h => ⟨h.exists_revision, h.openTo⟩⟩

/-- Whether the users of revisions and publications own their projects. -/
structure Owned (s : Store) : Prop where
  revisions : ∀ r ∈ s.revisions, s.BelongsTo r.project r.user
  publications : ∀ p ∈ s.publications, s.BelongsTo p.project p.user

variable {s t : Store} {now : Int} {stale : Int → Prop} {project user owner other : String}
  {r : Revision}

namespace BelongsTo

theorem congr (h : s.BelongsTo project user) (ht : t.revisions = s.revisions) :
    t.BelongsTo project user := by
  obtain ⟨hmem, hall⟩ := h
  rw [← ht] at hmem
  refine ⟨hmem, ?_⟩
  unfold OpenTo at hall ⊢
  rwa [ht]

theorem unique (h : s.BelongsTo project user) (ho : s.BelongsTo project other) : user = other := by
  obtain ⟨r, hr, hp⟩ := h.exists_revision
  exact (h.openTo r hr hp).symm.trans (ho.openTo r hr hp)

theorem latest?_eq (h : s.BelongsTo project owner) :
    ∃ r, s.latest? project = some r ∧ r.user = owner := by
  obtain ⟨r, hr, hp⟩ := h.exists_revision
  obtain ⟨latest, hl, -⟩ := exists_latest? (mem_numbers.2 ⟨r, hr, hp, rfl⟩)
  obtain ⟨hm, hlp, -⟩ := latest?_eq_some hl
  exact ⟨latest, hl, h.openTo latest hm hlp⟩

theorem denial?_eq (h : s.BelongsTo project owner) (hu : user ≠ owner) :
    Service.denial? (s.latest? project) project user = some (.foreignProject project) := by
  obtain ⟨r, hr, he⟩ := h.latest?_eq
  rw [hr, Service.denial?, he, if_neg (Ne.symm hu)]

theorem ownedLatest_eq (h : s.BelongsTo project owner) (hu : user ≠ owner) :
    Service.ownedLatest s project user = .error (.foreignProject project) := by
  obtain ⟨r, hr, he⟩ := h.latest?_eq
  simp only [Service.ownedLatest, hr, he]
  exact if_neg (Ne.symm hu)

theorem ownedNumber_eq (h : s.BelongsTo project owner) (hu : user ≠ owner) (requested : Option Int) :
    Service.ownedNumber s project user requested = .error (.foreignProject project) := by
  rw [Service.ownedNumber, h.ownedLatest_eq hu]
  rfl

end BelongsTo

theorem Owned.belongsTo (h : s.Owned) (hl : s.latest? project = some r) :
    s.BelongsTo project r.user := by
  obtain ⟨hm, rfl, -⟩ := latest?_eq_some hl
  exact h.revisions r hm

theorem Owned.openTo (h : s.Owned)
    (hd : Service.denial? (s.latest? project) project user = none) : s.OpenTo project user := by
  unfold Service.denial? at hd
  split at hd
  · rename_i r hl
    split at hd
    · rename_i hu
      exact hu ▸ (h.belongsTo hl).openTo
    · cases hd
  · -- Without a latest revision there is none at all.
    rename_i hnone
    intro r hr hp
    obtain ⟨latest, hl, -⟩ := exists_latest? (mem_numbers.2 ⟨r, hr, hp, rfl⟩)
    cases hnone.symm.trans hl

/-- An owner who asks for a number that has been given out gets it. -/
theorem ownedNumber_eq_ok {n : Int} (hl : s.latest? project = some r) (hu : r.user = user)
    (hn : 1 ≤ n ∧ n ≤ r.number) : Service.ownedNumber s project user (some n) = .ok n := by
  rw [Service.ownedNumber, Service.ownedLatest_eq_ok.2 ⟨hl, hu⟩]
  show Service.numberFor (some n) r = .ok n
  rw [Service.numberFor, if_neg (by omega), if_neg (by omega)]

/-- Whoever gets a number of a project owns it. -/
theorem Owned.belongsTo_of_ownedNumber (h : s.Owned) {requested : Option Int} {n : Int}
    (hn : Service.ownedNumber s project user requested = .ok n) : s.BelongsTo project user := by
  cases hl : Service.ownedLatest s project user with
  | error e =>
    rw [Service.ownedNumber, hl] at hn
    cases hn
  | ok latest =>
    obtain ⟨hlatest, rfl⟩ := Service.ownedLatest_eq_ok.1 hl
    exact h.belongsTo hlatest

theorem Owned.belongsTo_of_publishable (h : s.Owned) {requested : Option Int} {n : Int}
    (hn : Service.publishable s project user requested = .ok n) : s.BelongsTo project user := by
  cases ho : Service.ownedNumber s project user requested with
  | error e =>
    rw [Service.publishable, ho] at hn
    cases hn
  | ok number => exact h.belongsTo_of_ownedNumber ho

/-- Only owners have published. -/
theorem Owned.publicationOf?_eq_none (h : s.Owned) (hb : s.BelongsTo project owner)
    (hu : user ≠ owner) : s.publicationOf? project user = none := by
  refine List.find?_eq_none.2 fun p hp hk => ?_
  obtain ⟨rfl, rfl⟩ := of_decide_eq_true hk
  exact hu ((h.publications p hp).unique hb)

/-! ## Writing -/

section Allocates

variable (hr : Allocates now stale project user s r t) (ho : s.OpenTo project user)

include hr ho

/-- A project that is open to a user belongs to the user with its next revision. -/
theorem Allocates.belongsTo : t.BelongsTo project user := by
  refine ⟨⟨r, hr.mem, hr.project_eq⟩, fun r' hr' hp => ?_⟩
  rcases hr.mem_cases hr' with h | rfl
  · exact ho r' h hp
  · exact hr.user_eq

theorem Allocates.belongsTo_of_belongsTo {p u : String} (h : s.BelongsTo p u) : t.BelongsTo p u := by
  obtain ⟨old, hold, hp⟩ := h.exists_revision
  refine ⟨⟨old, ?_, hp⟩, fun r' hr' hp' => ?_⟩
  · rw [hr.revisions_eq]
    exact List.mem_append_left _ hold
  · rcases hr.mem_cases hr' with hm | rfl
    · exact h.openTo r' hm hp'
    · -- The revision is of a project that has an owner, to whom alone it is open.
      have hproject : project = p := hr.project_eq.symm.trans hp'
      rw [hr.user_eq, ← ho old hold (hp.trans hproject.symm)]
      exact h.openTo old hold hp

theorem Allocates.owned (h : s.Owned) : t.Owned := by
  refine ⟨fun r' hr' => ?_, fun p hp => ?_⟩
  · rcases hr.mem_cases hr' with hm | rfl
    · exact hr.belongsTo_of_belongsTo ho (h.revisions r' hm)
    · rw [hr.project_eq, hr.user_eq]
      exact hr.belongsTo ho
  · rw [hr.publications_eq] at hp
    exact hr.belongsTo_of_belongsTo ho (h.publications p hp)

end Allocates

/-! ## Publications -/

theorem Owned.congr (h : s.Owned) (hr : t.revisions = s.revisions)
    (hp : ∀ p ∈ t.publications, s.BelongsTo p.project p.user) : t.Owned := by
  refine ⟨fun r hm => ?_, fun p hm => (hp p hm).congr hr⟩
  rw [hr] at hm
  exact (h.revisions r hm).congr hr

theorem Owned.addPublication (h : s.Owned) (hb : s.BelongsTo project user) {publicId : String}
    {number : Int} {p : Publication}
    (ha : s.addPublication now publicId project user number = some (p, t)) : t.Owned := by
  obtain ⟨-, rfl, rfl⟩ := addPublication_eq_some.1 ha
  refine h.congr rfl fun p hp => ?_
  rcases List.mem_append.1 hp with hp | hp
  · exact h.publications p hp
  · rw [List.mem_singleton.1 hp]
    exact hb

/-- A publication that is moved is still the same user's. -/
theorem Owned.updatePublication (h : s.Owned) (found : Publication) (number : Int) :
    (s.updatePublication now found number).2.Owned := by
  refine h.congr rfl fun p hp => ?_
  obtain ⟨p₀, hp₀, rfl⟩ := List.mem_map.1 hp
  split <;> exact h.publications p₀ hp₀

end Store

namespace Service

open Program Store

/-- Whether whoever is named with a project owns it. -/
structure Owned (s : Service) : Prop where
  store : s.store.Owned
  /-- What is kept was to be written by the owner. -/
  pending : ∀ e ∈ s.pending.entries, s.store.BelongsTo e.1.2 e.1.1

variable {terms : Terms} {stale : Int → Prop} {read : Markup.OutlineReader} {settings : Settings}
  {s t : Service} {project user : String} {draft : FileDraft}

/-- A publication is moved, or added, or nothing is written. -/
theorem pin_eq {now number : Int} {a : Except WriteFault Publication}
    (h : s.pin now project user number = (a, t)) :
    (∃ found, s.store.publicationOf? project user = some found ∧ a = .ok (found.repoint now number) ∧
      t = { s with store := (s.store.updatePublication now found number).2 }) ∨
    (s.store.publicationOf? project user = none ∧ ∃ p store,
      s.store.addPublication now s.ids.draw.1 project user number = some (p, store) ∧ a = .ok p ∧
      t = { s with store, ids := s.ids.draw.2 }) ∨
    ∃ fault, a = .error fault ∧ (t = s ∨ t = { s with ids := s.ids.draw.2 }) := by
  unfold pin at h
  split at h
  · rename_i found hf
    split at h <;> cases h
    · exact .inl ⟨found, hf, rfl, rfl⟩
    · exact .inr (.inr ⟨_, rfl, .inl rfl⟩)
  · rename_i hnone
    dsimp only at h
    split at h
    · obtain ⟨-, ha, ht⟩ | ⟨p, store, hadded, ha, ht⟩ := inserted_cases h
      · exact .inr (.inr ⟨_, ha, .inr ht⟩)
      · exact .inr (.inl ⟨hnone, p, store, hadded, ha, ht⟩)
    · cases h
      exact .inr (.inr ⟨_, rfl, .inr rfl⟩)

namespace Owned

/-- Nothing is kept for anybody but the owner. -/
theorem get_eq (h : s.Owned) {owner : String} (hb : s.store.BelongsTo project owner)
    (hu : user ≠ owner) (expiry : Expiry) (now : Int) :
    s.pending.get expiry now user project = (none, s.pending) := by
  have hnone : s.pending.find? (user, project) = none := by
    refine Option.eq_none_iff_forall_ne_some.2 fun save hs => ?_
    exact hu ((h.pending _ (OrderedMap.mem_keys_of_find? hs)).unique hb)
  rw [PendingSaves.get, hnone]

/-- A state with the same revisions and publications that keeps nothing more. -/
theorem congr (h : s.Owned) (hr : t.store.revisions = s.store.revisions)
    (hp : t.store.publications = s.store.publications)
    (hk : t.pending.entries ⊆ s.pending.entries) : t.Owned := by
  refine ⟨h.store.congr hr fun p hm => ?_, fun e he => (h.pending e (hk he)).congr hr⟩
  rw [hp] at hm
  exact h.store.publications p hm

theorem allocates (h : s.Owned) (ho : s.store.OpenTo project user) {r : Revision} {numbered : Store}
    (hr : Allocates terms.now stale project user s.store r numbered) :
    Owned { s with store := numbered } where
  store := hr.owned ho h.store
  pending e he := hr.belongsTo_of_belongsTo ho (h.pending e he)

theorem keep (h : s.Owned) (hb : s.store.BelongsTo project user) (save : PendingSave) :
    Owned { s with pending := s.pending.put user project save } where
  store := h.store
  pending e he := by
    rcases List.mem_cons.1 (s.pending.entries_put_subset user project save he) with rfl | he
    · exact hb
    · exact h.pending e he

/-- What is written for a user whom the project is open to. -/
theorem persisted (h : s.Owned) (ho : s.store.OpenTo project user) {a : Except SiteError Saved}
    (hp : Persisted terms stale project user draft s a t) : t.Owned := by
  cases hp with
  | unnumbered => exact h
  | @failed r numbered recorded hr hf =>
    have hnumbered := h.allocates ho hr
    obtain ⟨hrevisions, hpublications⟩ : recorded.revisions = numbered.revisions ∧
        recorded.publications = numbered.publications := by
      rcases hf with rfl | ⟨f, hf⟩
      · exact ⟨rfl, rfl⟩
      · exact ⟨hf.revisions_eq, hf.publications_eq⟩
    have hrecorded : Owned { s with store := recorded } :=
      hnumbered.congr hrevisions hpublications (List.Subset.refl _)
    exact hrecorded.keep ((hr.belongsTo ho).congr hrevisions) _
  | saved hr hf =>
    exact (h.allocates ho hr).congr hf.revisions_eq hf.publications_eq (List.Subset.refl _)

/-! ## Calls -/

theorem saveFor (h : s.Owned) (ho : s.store.OpenTo project user) {destination content : String}
    {a : Except SiteError Saved}
    (he : (saveFor read settings project user destination content).Ends terms stale s a t) : t.Owned := by
  have hcounted : Owned { s with limiter := (s.limiter.check terms.quota terms.now user).2 } :=
    ⟨h.store, h.pending⟩
  obtain ⟨-, rfl, -⟩ | ⟨-, e, -, -, rfl⟩ | ⟨-, draft, -, hp⟩ := saveFor_ends he
  · exact hcounted
  · exact hcounted
  · exact hcounted.persisted ho hp

theorem save (h : s.Owned) {destination content : String} {a : Except SiteError Saved}
    (he : (saveOwned read settings project user destination content).Ends terms stale s a t) :
    t.Owned := by
  obtain ⟨e, -, -, rfl⟩ | ⟨hd, he⟩ := saveOwned_ends he
  · exact h
  · exact h.saveFor (h.store.openTo hd) he

theorem saveRough (h : s.Owned) {destination content : Text.Points} {a : Except SiteError Saved}
    (he : (saveRough read settings project user destination content).Ends terms stale s a t) :
    t.Owned := by
  obtain ⟨e, -, -, rfl⟩ | ⟨hd, -, limiter, store, rfl, rfl | ⟨r, hr⟩⟩ := saveRough_ends he
  · exact h
  · exact ⟨h.store, h.pending⟩
  · have hnumbered := h.allocates (h.store.openTo hd) hr
    exact ⟨hnumbered.store, hnumbered.pending⟩

/-- Nobody asks whether a retry is the owner's. It is, because it writes what was kept. -/
theorem retry (h : s.Owned) {a : Except SiteError Saved}
    (he : (retryFor settings project user).Ends terms stale s a t) : t.Owned := by
  have hfound : Owned
      { s with pending := (s.pending.get terms.pendingExpiry terms.now user project).2 } :=
    h.congr rfl rfl (s.pending.entries_get_subset _ _ _ _)
  obtain ⟨-, -, rfl⟩ | ⟨save, hsave, hended⟩ := retryFor_ends he
  · exact hfound
  · have ho := (h.pending _ (PendingSaves.mem_entries_of_get hsave)).openTo
    obtain ⟨e, rfl, hp⟩ | ⟨saved, v, rfl, hp, rfl⟩ := hended
    · exact hfound.persisted ho hp
    · exact (hfound.persisted ho hp).congr rfl rfl (v.pending.entries_discard_subset _ _)

theorem pin (h : s.Owned) (hb : s.store.BelongsTo project user) {now number : Int}
    {a : Except WriteFault Publication} (hp : s.pin now project user number = (a, t)) : t.Owned := by
  obtain ⟨found, -, -, rfl⟩ | ⟨-, p, store, ha, -, rfl⟩ | ⟨fault, -, rfl | rfl⟩ := pin_eq hp
  · exact ⟨h.store.updatePublication found number, fun e he => (h.pending e he).congr rfl⟩
  · obtain ⟨-, -, hstore⟩ := addPublication_eq_some.1 ha
    refine ⟨h.store.addPublication hb ha, fun e he => (h.pending e he).congr ?_⟩
    rw [hstore]
  · exact h
  · exact ⟨h.store, h.pending⟩

end Owned

end Service

end VersionedSite
