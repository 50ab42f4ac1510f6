import VersionedSite.Proofs.Service.Composition
import VersionedSite.Proofs.Service.History
import VersionedSite.Proofs.Service.Ownership

/-!
# What is published

Whatever is called, a project has one publication at most, under a public id of its own, and the
publication stands at a number of the project at which there is a site (`Hosting`). What is seen at a
number that has been given out stays (`Store.Later`), and only who has published a project moves its
publication (`Upholds`).

* `Continues.save`, `Continues.retry`, `Continues.saveRough`, `Continues.composing`: calls that publish
  nothing.
* `Hosting.pin`: what a call that publishes leaves.
* `Hosting.pin_ne_taken`: it is never refused because of another publication.
-/

namespace VersionedSite

namespace Store

/-- A later store: revisions stay, and at a number that has been given out the same is seen. -/
structure Later (s t : Store) : Prop where
  revisions : s.revisions ⊆ t.revisions
  greatest_le : ∀ project, s.greatest project ≤ t.greatest project
  contentAt_eq : ∀ project path n, n ≤ s.greatest project →
    t.contentAt project path n = s.contentAt project path n

variable {s t u : Store} {project : String}

theorem Later.refl (s : Store) : Later s s := ⟨fun _ h => h, fun _ => Int.le_refl _, fun _ _ _ _ => rfl⟩

theorem Later.trans (h : Later s t) (h' : Later t u) : Later s u where
  revisions := List.Subset.trans h.revisions h'.revisions
  greatest_le p := Int.le_trans (h.greatest_le p) (h'.greatest_le p)
  contentAt_eq p path n hn :=
    (h'.contentAt_eq p path n (Int.le_trans hn (h.greatest_le p))).trans (h.contentAt_eq p path n hn)

/-- Publications are not seen. -/
theorem Later.congr {publications : List Publication} (h : t = { s with publications }) : Later s t := by
  subst h
  exact ⟨fun _ h => h, fun _ => Int.le_refl _, fun _ _ _ _ => rfl⟩

theorem Later.mem_numbers (h : Later s t) {n : Int} (hn : n ∈ s.numbers project) :
    n ∈ t.numbers project := by
  obtain ⟨r, hr, hk⟩ := Store.mem_numbers.1 hn
  exact Store.mem_numbers.2 ⟨r, h.revisions hr, hk⟩

theorem Later.sameContents (h : Later s t) {n : Int} (hn : n ≤ s.greatest project) :
    SameContents project s n t n :=
  sameContents_of_eq fun path => h.contentAt_eq project path n hn

end Store

namespace Service

open Program Store

variable {terms : Terms} {stale : Int → Prop} {read : Markup.OutlineReader} {settings : Settings}
  {s t u : Service} {project user : String}

/-! ## Calls that write files -/

/-- What a call that writes files leaves of the tables. -/
structure Writes (s t : Service) : Prop where
  coherent : s.store.Coherent → t.store.Coherent
  revisions : s.store.revisions ⊆ t.store.revisions
  publications_eq : t.store.publications = s.store.publications
  ids_eq : t.ids = s.ids

theorem writes_of_store (hs : t.store = s.store) (hi : t.ids = s.ids) : Writes s t := by
  refine ⟨?_, ?_, ?_, hi⟩ <;> rw [hs]
  · exact id
  · exact List.Subset.refl _

theorem writes_of_allocates {r : Revision} {store : Store}
    (hr : Allocates terms.now stale project user s.store r store) : Writes s { s with store } where
  coherent := hr.coherent
  revisions := by
    show s.store.revisions ⊆ store.revisions
    rw [hr.revisions_eq]
    exact List.subset_append_left _ _
  publications_eq := hr.publications_eq
  ids_eq := rfl

theorem Writes.records (h : Writes s t) {path role : String} {f : FileRecord} {store : Store}
    (hf : Records terms.now project path role t.store f store) : Writes s { t with store } where
  coherent hc := hf.coherent (h.coherent hc)
  revisions := by
    show s.store.revisions ⊆ store.revisions
    rw [hf.revisions_eq]
    exact h.revisions
  publications_eq := hf.publications_eq.trans h.publications_eq
  ids_eq := h.ids_eq

theorem writes_of_persisted {draft : FileDraft} {a : Except SiteError Saved}
    (hp : Persisted terms stale project user draft s a t) : Writes s t := by
  cases hp with
  | unnumbered => exact writes_of_store rfl rfl
  | failed hr hf =>
    have hnumbered := writes_of_allocates hr
    rcases hf with rfl | ⟨f, hf⟩
    · exact { hnumbered with }
    · exact { hnumbered.records hf with }
  | @saved r f numbered recorded hr hf =>
    have hrecorded := (writes_of_allocates hr).records hf
    obtain ⟨hmem, hproject, -⟩ := hf.mem
    have hrevision : r ∈ recorded.revisions := hf.revisions_eq ▸ hr.mem
    refine { hrecorded with coherent := fun hc => ?_ }
    exact coherent_addVersion (hrecorded.coherent hc) hmem hrevision
      (hr.project_eq.trans hproject.symm) draft.content

theorem writes_of_saveFor {destination content : String} {a : Except SiteError Saved}
    (he : (saveFor read settings project user destination content).Ends terms stale s a t) :
    Writes s t := by
  obtain ⟨-, rfl, -⟩ | ⟨-, e, -, -, rfl⟩ | ⟨-, draft, -, hp⟩ := saveFor_ends he
  · exact writes_of_store rfl rfl
  · exact writes_of_store rfl rfl
  · exact { writes_of_persisted hp with }

theorem writes_of_retryFor {a : Except SiteError Saved}
    (he : (retryFor settings project user).Ends terms stale s a t) : Writes s t := by
  obtain ⟨-, -, rfl⟩ | ⟨save, -, ⟨e, rfl, hp⟩ | ⟨saved, u, rfl, hp, rfl⟩⟩ := retryFor_ends he
  · exact writes_of_store rfl rfl
  · exact { writes_of_persisted hp with }
  · exact { writes_of_persisted hp with }

/-! ## Calls that publish nothing -/

/-- What a call that publishes nothing leaves. -/
structure Continues (s t : Service) : Prop where
  healthy : t.Healthy
  coherent : t.store.Coherent
  later : s.store.Later t.store
  publications_eq : t.store.publications = s.store.publications
  ids_eq : ∃ count, t.ids = s.ids.skip count

namespace Continues

theorem of_follows {history : History} (hf : Follows s history t) (hw : Writes s t)
    (hc : s.store.Coherent) : Continues s t where
  healthy := hf.toHealthy
  coherent := hw.coherent hc
  later := ⟨hw.revisions, hf.greatest_le, fun _ path _ hn => hf.contentAt_eq hn path⟩
  publications_eq := hw.publications_eq
  ids_eq := ⟨0, hw.ids_eq⟩

variable (h : s.Healthy) (hc : s.store.Coherent)

include h hc

theorem refl : Continues s s := of_follows h.follows (writes_of_store rfl rfl) hc

theorem composing (ht : ∃ modules count, t = { s with modules, ids := s.ids.skip count }) :
    Continues s t := by
  obtain ⟨modules, count, rfl⟩ := ht
  exact ⟨{ h with }, hc, .refl _, rfl, count, rfl⟩

variable (hstale : ∀ n, stale n → 1 ≤ n ∧ n ≤ s.store.greatest project + 1)

include hstale

theorem save {destination content : String} {a : Except SiteError Saved}
    (he : (saveOwned read settings project user destination content).Ends terms stale s a t) :
    Continues s t := by
  obtain ⟨e, -, -, rfl⟩ | ⟨-, he⟩ := saveOwned_ends he
  · exact refl h hc
  · exact of_follows (h.follows.save hstale he) (writes_of_saveFor he) hc

theorem retry {a : Except SiteError Saved}
    (he : (retryFor settings project user).Ends terms stale s a t) : Continues s t :=
  of_follows (h.follows.retry hstale he) (writes_of_retryFor he) hc

theorem saveRough {destination content : Text.Points} {a : Except SiteError Saved}
    (he : (saveRough read settings project user destination content).Ends terms stale s a t) :
    Continues s t := by
  obtain ⟨e, -, -, rfl⟩ | ⟨-, ⟨e, rfl⟩, limiter, store, rfl, rfl | ⟨r, hr⟩⟩ := saveRough_ends he
  · exact refl h hc
  · exact of_follows { h.follows with } (writes_of_store rfl rfl) hc
  · have hn := hr.number_eq h.gapless hstale
    have hnumbered : Healthy { s with limiter, store } := { h.allocates hr hn with }
    refine of_follows (h.follows.concat hnumbered (project, .error e) (fun p => ?_) (fun p => ?_) ?_)
      { writes_of_allocates hr with } hc
    · show s.store.greatest p ≤ store.greatest p
      rw [hr.greatest_eq hn]
      split <;> omega
    · exact (hr.seen_eq h.sound).trans (List.append_nil _).symm
    · intro p f hf
      cases hf

end Continues

/-! ## Numbers to publish -/

/-- What a user may publish is a number of the user's project at which there is a site. -/
theorem publishable_eq_ok {requested : Option Int} {n : Int} (h : s.Healthy)
    (hp : publishable s.store project user requested = .ok n) :
    n ∈ s.store.numbers project ∧ (flavour? s.store project n).isSome := by
  cases hl : ownedLatest s.store project user with
  | error e => simp [publishable, ownedNumber, hl, Bind.bind, Except.bind] at hp
  | ok latest =>
    obtain ⟨hlatest, -⟩ := ownedLatest_eq_ok.1 hl
    obtain ⟨hm, hproject, hgreatest⟩ := latest?_eq_some hlatest
    have hmem : latest.number ∈ s.store.numbers project :=
      mem_numbers.2 ⟨latest, hm, hproject, rfl⟩
    cases hn : numberFor requested latest with
    | error e => simp [publishable, ownedNumber, hl, hn, Bind.bind, Except.bind] at hp
    | ok number =>
      have hnumber : number ∈ s.store.numbers project := by
        unfold numberFor at hn
        split at hn
        · cases hn
          exact hmem
        · split at hn
          · cases hn
            exact hmem
          · split at hn <;> cases hn
            exact h.gapless project number (by omega) (by omega)
      cases hf : flavour? s.store project number with
      | none => simp [publishable, ownedNumber, hl, hn, hf, Bind.bind, Except.bind] at hp
      | some flavour =>
        simp only [publishable, ownedNumber, hl, hn, hf, Bind.bind, Except.bind, Pure.pure,
          Except.pure, Except.ok.injEq] at hp
        subst hp
        exact ⟨hnumber, by rw [hf]; rfl⟩

/-! ## Publications -/

/-- What holds of publications whatever is called. -/
structure Hosting (s : Service) : Prop where
  healthy : s.Healthy
  coherent : s.store.Coherent
  /-- A project has one publication, under a public id of its own. -/
  distinct : s.store.publications.Pairwise fun p q => p.project ≠ q.project ∧ p.publicId ≠ q.publicId
  drawn : ∀ p ∈ s.store.publications, ∃ k ≤ s.ids.drawn, p.publicId = s.ids.sequence k
  numbered : ∀ p ∈ s.store.publications, p.number ∈ s.store.numbers p.project
  composable : ∀ p ∈ s.store.publications, (flavour? s.store p.project p.number).isSome

/-- Whether publications are as they were, but for those of certain projects by certain users, which may
stand at other numbers. -/
def Keeps (moved : String → String → Prop) (s t : Store) : Prop :=
  ∀ p ∈ s.publications, ∃ q ∈ t.publications,
    q.project = p.project ∧ q.publicId = p.publicId ∧ q.user = p.user ∧
      (q = p ∨ moved p.project p.user)

/-- What calls leave, of which some have moved publications. -/
structure Upholds (moved : String → String → Prop) (s t : Service) : Prop where
  hosting : t.Hosting
  later : s.store.Later t.store
  sequence_eq : t.ids.sequence = s.ids.sequence
  keeps : Keeps moved s.store t.store

theorem Keeps.refl (moved : String → String → Prop) (s : Store) : Keeps moved s s :=
  fun p hp => ⟨p, hp, rfl, rfl, rfl, .inl rfl⟩

theorem Hosting.upholds (h : s.Hosting) (moved : String → String → Prop) : Upholds moved s s :=
  ⟨h, .refl _, rfl, .refl moved _⟩

theorem Upholds.trans {moved moved' : String → String → Prop} (h : Upholds moved s t)
    (h' : Upholds moved' t u) : Upholds (fun p user => moved p user ∨ moved' p user) s u where
  hosting := h'.hosting
  later := h.later.trans h'.later
  sequence_eq := h'.sequence_eq.trans h.sequence_eq
  keeps p hp := by
    obtain ⟨q, hq, hproject, hid, huser, hmoved⟩ := h.keeps p hp
    obtain ⟨q', hq', hproject', hid', huser', hmoved'⟩ := h'.keeps q hq
    refine ⟨q', hq', hproject'.trans hproject, hid'.trans hid, huser'.trans huser, ?_⟩
    rcases hmoved with rfl | hmoved
    · exact hmoved'.imp_right .inr
    · exact .inr (.inl hmoved)

theorem Upholds.mono {moved moved' : String → String → Prop} (h : Upholds moved s t)
    (hm : ∀ p user, moved p user → moved' p user) : Upholds moved' s t :=
  { h with
    keeps := fun p hp => by
      obtain ⟨q, hq, hproject, hid, huser, hmoved⟩ := h.keeps p hp
      exact ⟨q, hq, hproject, hid, huser, hmoved.imp_right (hm _ _)⟩ }

theorem Healthy.publishing (h : s.Healthy) (publications : List Publication) (ids : IdSupply) :
    Healthy { s with store := { s.store with publications }, ids } :=
  ⟨{ h.sound with }, h.gapless, h.classified, h.pending⟩

namespace Hosting

variable (h : s.Hosting)

include h

theorem publication_ext {p q : Publication} (hp : p ∈ s.store.publications)
    (hq : q ∈ s.store.publications) (he : p.project = q.project ∨ p.publicId = q.publicId) : p = q := by
  have hprojects : (s.store.publications.map Publication.project).Nodup :=
    List.pairwise_map.2 (h.distinct.imp fun hpq => hpq.1)
  have hids : (s.store.publications.map Publication.publicId).Nodup :=
    List.pairwise_map.2 (h.distinct.imp fun hpq => hpq.2)
  rcases he with he | he
  · exact List.inj_on_of_nodup_map hprojects hp hq he
  · exact List.inj_on_of_nodup_map hids hp hq he

theorem publication?_eq_some {p : Publication} (hp : p ∈ s.store.publications) :
    s.store.publication? p.publicId = some p := by
  refine (find?_eq_some_of_unique fun q hq q' hq' he he' => ?_).2 ⟨hp, by simp⟩
  rw [decide_eq_true_eq] at he he'
  exact h.publication_ext hq hq' (.inr (he.trans he'.symm))

theorem number_le {p : Publication} (hp : p ∈ s.store.publications) :
    p.number ≤ s.store.greatest p.project :=
  le_greatest (h.numbered p hp)

/-- A call that publishes nothing leaves all publications where they are. -/
theorem continues (hc : Continues s t) (moved : String → String → Prop) : Upholds moved s t := by
  obtain ⟨count, hids⟩ := hc.ids_eq
  have hkeeps : Keeps moved s.store t.store := by
    intro p hp
    rw [← hc.publications_eq] at hp
    exact ⟨p, hp, rfl, rfl, rfl, .inl rfl⟩
  refine ⟨⟨hc.healthy, hc.coherent, ?_, fun p hp => ?_, fun p hp => ?_, fun p hp => ?_⟩, hc.later, ?_,
    hkeeps⟩
  · rw [hc.publications_eq]
    exact h.distinct
  · rw [hc.publications_eq] at hp
    obtain ⟨k, hk, he⟩ := h.drawn p hp
    rw [hids]
    exact ⟨k, Nat.le_trans hk (Nat.le_add_right _ _), he⟩
  · rw [hc.publications_eq] at hp
    exact hc.later.mem_numbers (h.numbered p hp)
  · rw [hc.publications_eq] at hp
    rw [flavour?_congr (hc.later.sameContents (h.number_le hp))]
    exact h.composable p hp
  · rw [hids]
    rfl

section Pin

variable {now number : Int} (hn : number ∈ s.store.numbers project)
  (hf : (flavour? s.store project number).isSome)

include hn hf

theorem updatePublication {found : Publication}
    (hfound : s.store.publicationOf? project user = some found) :
    Upholds (fun p u => p = project ∧ u = user) s
      { s with store := (s.store.updatePublication now found number).2 } := by
  have hm := List.mem_of_find?_eq_some hfound
  have hk := List.find?_some hfound
  rw [decide_eq_true_eq] at hk
  obtain ⟨rfl, rfl⟩ := hk
  -- The row that is moved is the one that was found.
  have hself : ∀ p ∈ s.store.publications, p.publicId = found.publicId → p = found :=
    fun p hp he => h.publication_ext hp hm (.inr he)
  have hpoint : ∀ q ∈ (s.store.updatePublication now found number).2.publications,
      q ∈ s.store.publications ∨ q = found.repoint now number := by
    intro q hq
    obtain ⟨p, hp, rfl⟩ := List.mem_map.1 hq
    split
    · rename_i he
      rw [hself p hp he]
      exact .inr rfl
    · exact .inl hp
  refine ⟨⟨h.healthy.publishing _ _, h.coherent, ?_, fun q hq => ?_, fun q hq => ?_, fun q hq => ?_⟩,
    .congr rfl, rfl, ?_⟩
  · refine List.pairwise_map.2 (h.distinct.imp fun {p q} hpq => ?_)
    split <;> split <;> exact hpq
  · rcases hpoint q hq with hq | rfl
    · exact h.drawn q hq
    · exact h.drawn found hm
  · rcases hpoint q hq with hq | rfl
    · exact h.numbered q hq
    · exact hn
  · rcases hpoint q hq with hq | rfl
    · exact h.composable q hq
    · exact hf
  · intro p hp
    refine ⟨_, List.mem_map.2 ⟨p, hp, rfl⟩, ?_⟩
    split
    · rename_i he
      rw [hself p hp he]
      exact ⟨rfl, rfl, rfl, .inr ⟨rfl, rfl⟩⟩
    · exact ⟨rfl, rfl, rfl, .inl rfl⟩

theorem addPublication {p : Publication} {store : Store}
    (ha : s.store.addPublication now s.ids.draw.1 project user number = some (p, store)) :
    Upholds (fun p u => p = project ∧ u = user) s { s with store, ids := s.ids.draw.2 } := by
  obtain ⟨hfree, rfl, rfl⟩ := addPublication_eq_some.1 ha
  refine ⟨⟨h.healthy.publishing _ _, h.coherent, ?_, fun q hq => ?_, fun q hq => ?_, fun q hq => ?_⟩,
    .congr rfl, rfl, ?_⟩
  · refine List.pairwise_append.2 ⟨h.distinct, List.pairwise_singleton _ _, fun q hq p hp => ?_⟩
    rw [List.mem_singleton.1 hp]
    exact hfree q hq
  · rcases List.mem_append.1 hq with hq | hq
    · obtain ⟨k, hk, he⟩ := h.drawn q hq
      exact ⟨k, Nat.le_succ_of_le hk, he⟩
    · rw [List.mem_singleton.1 hq]
      exact ⟨s.ids.drawn + 1, Nat.le_refl _, rfl⟩
  · rcases List.mem_append.1 hq with hq | hq
    · exact h.numbered q hq
    · rw [List.mem_singleton.1 hq]
      exact hn
  · rcases List.mem_append.1 hq with hq | hq
    · exact h.composable q hq
    · rw [List.mem_singleton.1 hq]
      exact hf
  · intro q hq
    exact ⟨q, List.mem_append_left _ hq, rfl, rfl, rfl, .inl rfl⟩

/-- Whoever publishes moves or makes a publication of their own. -/
theorem pin {a : Except WriteFault Publication} (hp : s.pin now project user number = (a, t)) :
    Upholds (fun p u => p = project ∧ u = user) s t := by
  obtain ⟨found, hfound, -, rfl⟩ | ⟨-, p, store, ha, -, rfl⟩ | ⟨fault, -, rfl | rfl⟩ := pin_eq hp
  · exact h.updatePublication hn hf hfound
  · exact h.addPublication hn hf ha
  · exact h.upholds _
  · exact h.continues (.composing h.healthy h.coherent ⟨s.modules, 1, rfl⟩) _

end Pin

/-- An owner who publishes is never refused because of another publication, while identifiers do not
repeat. -/
theorem pin_ne_taken (ho : s.store.Owned) (hinj : Function.Injective s.ids.sequence)
    (hb : s.store.BelongsTo project user) (now number : Int) :
    (s.pin now project user number).1 ≠ .error .taken := by
  unfold Service.pin
  split
  · split <;> simp
  · rename_i hnone
    dsimp only
    split
    · cases ha : s.store.addPublication now s.ids.draw.1 project user number with
      | some row => simp [inserted]
      | none =>
        obtain ⟨p, hp, hk⟩ := addPublication_eq_none.1 ha
        rcases hk with rfl | he
        · -- The publication of the project is the owner's, who has none.
          have hu := (ho.publications p hp).unique hb
          rw [Store.publicationOf?, List.find?_eq_none] at hnone
          exact absurd (decide_eq_true ⟨rfl, hu⟩) (hnone p hp)
        · obtain ⟨k, hk, hid⟩ := h.drawn p hp
          have hdrawn : k = s.ids.drawn + 1 := hinj (hid.symm.trans he)
          omega
    · simp

end Hosting

end Service

end VersionedSite
