import VersionedSite.Proofs.Service.Ownership

/-!
# Where numbers begin

No revision is numbered below one (`Store.Positive`), because each is inserted at the number behind the
greatest. Whatever is called, it stays so.

* `Allocates.positive`: what inserting a revision keeps.
* `Positive.save`, `Positive.saveRough`, `Positive.retry`, `Positive.pin`: what calls keep.
-/

namespace VersionedSite

namespace Store

/-- Whether all revisions have positive numbers. -/
def Positive (s : Store) : Prop := ∀ r ∈ s.revisions, 1 ≤ r.number

variable {s t : Store} {now : Int} {stale : Int → Prop} {project user : String} {r : Revision}

theorem Positive.congr (h : s.Positive) (ht : t.revisions = s.revisions) : t.Positive := by
  rw [Positive, ht]
  exact h

theorem Positive.greatest_nonneg (h : s.Positive) (project : String) : 0 ≤ s.greatest project := by
  by_cases hnone : s.numbers project = []
  · exact Int.le_of_eq (greatest_eq_zero hnone).symm
  · obtain ⟨r, hr, -, hn⟩ := mem_numbers.1 (greatest_mem hnone)
    have hpos := h r hr
    omega

theorem Allocates.positive (hr : Allocates now stale project user s r t) (h : s.Positive)
    (hs : s.Gapless) (hstale : ∀ n, stale n → 1 ≤ n ∧ n ≤ s.greatest project + 1) : t.Positive := by
  intro r' hr'
  obtain hold | rfl := hr.mem_cases hr'
  · exact h r' hold
  · have hgreatest := h.greatest_nonneg project
    rw [hr.number_eq hs hstale]
    omega

end Store

namespace Service

open Program Store

variable {terms : Terms} {stale : Int → Prop} {read : Markup.OutlineReader} {settings : Settings}
  {s t : Service} {project user : String}

namespace Positive

section Calls

variable (h : s.store.Positive) (hs : s.store.Gapless)
  (hstale : ∀ n, stale n → 1 ≤ n ∧ n ≤ s.store.greatest project + 1)

include h hs hstale

theorem persisted {draft : FileDraft} {a : Except SiteError Saved}
    (hp : Persisted terms stale project user draft s a t) : t.store.Positive := by
  cases hp with
  | unnumbered => exact h
  | failed hr hf =>
    have hnumbered := hr.positive h hs hstale
    rcases hf with rfl | ⟨f, hf⟩
    · exact hnumbered
    · exact hnumbered.congr hf.revisions_eq
  | saved hr hf => exact (hr.positive h hs hstale).congr hf.revisions_eq

theorem saveFor {destination content : String} {a : Except SiteError Saved}
    (he : (saveFor read settings project user destination content).Ends terms stale s a t) :
    t.store.Positive := by
  obtain ⟨-, rfl, -⟩ | ⟨-, e, -, -, rfl⟩ | ⟨-, draft, -, hp⟩ := saveFor_ends he
  · exact h
  · exact h
  · refine persisted ?_ ?_ ?_ hp <;> assumption

theorem save {destination content : String} {a : Except SiteError Saved}
    (he : (saveOwned read settings project user destination content).Ends terms stale s a t) :
    t.store.Positive := by
  obtain ⟨e, -, -, rfl⟩ | ⟨-, he⟩ := saveOwned_ends he
  · exact h
  · exact saveFor h hs hstale he

theorem saveRough {destination content : Text.Points} {a : Except SiteError Saved}
    (he : (saveRough read settings project user destination content).Ends terms stale s a t) :
    t.store.Positive := by
  obtain ⟨e, -, -, rfl⟩ | ⟨-, -, limiter, store, rfl, rfl | ⟨r, hr⟩⟩ := saveRough_ends he
  · exact h
  · exact h
  · exact hr.positive h hs hstale

theorem retry {a : Except SiteError Saved}
    (he : (retryFor settings project user).Ends terms stale s a t) : t.store.Positive := by
  obtain ⟨-, -, rfl⟩ | ⟨save, -, ⟨e, -, hp⟩ | ⟨saved, u, -, hp, rfl⟩⟩ := retryFor_ends he
  · exact h
  · refine persisted ?_ ?_ ?_ hp <;> assumption
  · have hu : u.store.Positive := by refine persisted ?_ ?_ ?_ hp <;> assumption
    exact hu

end Calls

theorem pin (h : s.store.Positive) {now number : Int} {a : Except WriteFault Publication}
    (hp : s.pin now project user number = (a, t)) : t.store.Positive := by
  obtain ⟨found, -, -, rfl⟩ | ⟨-, p, store, ha, -, rfl⟩ | ⟨fault, -, rfl | rfl⟩ := pin_eq hp
  · exact h
  · obtain ⟨-, -, rfl⟩ := addPublication_eq_some.1 ha
    exact h
  · exact h
  · exact h

end Positive

end Service

end VersionedSite
