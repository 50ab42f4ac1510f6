import Mathlib
import VersionedSite.Proofs.Store.Integrity

/-!
# Revisions of several writers

The revisions that a store has beyond another one, each of one of several writers (`Store.Assigned`). Who
inserts a number that is free and follows at most the greatest gets the next one
(`Assigned.addRevision`), so the numbers of all writers follow the greatest without a gap
(`Assigned.bijOn_number`).
-/

namespace VersionedSite.Store

variable {ι : Type}

/-- A store whose revisions beyond those of another one are each of one of several writers: of which,
and in which projects they write. -/
structure Assigned (s : Store) (projects : ι → String) (owner : ι → Option Revision) (t : Store) :
    Prop where
  greatest_le : ∀ p, s.greatest p ≤ t.greatest p
  gapless : ∀ p n, s.greatest p < n → n ≤ t.greatest p → n ∈ t.numbers p
  mem : ∀ i r, owner i = some r →
    r ∈ t.revisions ∧ r.project = projects i ∧ s.greatest (projects i) < r.number
  owned : ∀ r ∈ t.revisions, s.greatest r.project < r.number → ∃ i, owner i = some r
  distinct : ∀ i j r, owner i = some r → owner j = some r → i = j

variable {s t u : Store} {projects : ι → String} {owner : ι → Option Revision} {now : Int}

theorem assigned_self (s : Store) (projects : ι → String) :
    Assigned s projects (fun _ => none) s where
  greatest_le _ := Int.le_refl _
  gapless p n hlt hle := by omega
  mem _ _ h := by cases h
  owned r hr hlt := by
    have hle := le_greatest (mem_numbers.2 ⟨r, hr, rfl, rfl⟩)
    omega
  distinct _ _ _ h := by cases h

namespace Assigned

theorem congr (h : Assigned s projects owner t) (hu : u.revisions = t.revisions) :
    Assigned s projects owner u := by
  have hnumbers : ∀ p, u.numbers p = t.numbers p := fun p => by simp only [numbers, hu]
  have hgreatest : ∀ p, u.greatest p = t.greatest p := fun p => by simp only [greatest, hnumbers]
  refine ⟨fun p => ?_, fun p n hlt hle => ?_, fun i r hr => ?_, fun r hr => ?_, h.distinct⟩
  · rw [hgreatest]
    exact h.greatest_le p
  · rw [hgreatest] at hle
    rw [hnumbers]
    exact h.gapless p n hlt hle
  · rw [hu]
    exact h.mem i r hr
  · rw [hu] at hr
    exact h.owned r hr

/-- A number that is free can only be the next one. -/
theorem number_eq (h : Assigned s projects owner t) {i : ι} {number : Int} {user : String}
    {r : Revision} (ha : t.addRevision now (projects i) number user = some (r, u))
    (hlt : s.greatest (projects i) < number) (hle : number ≤ t.greatest (projects i) + 1) :
    number = t.greatest (projects i) + 1 := by
  by_contra hne
  obtain ⟨r', hr', hp, hn⟩ := mem_numbers.1 (h.gapless (projects i) number hlt (by omega))
  exact (addRevision_eq_some.1 ha).1 r' hr' hp hn

variable [DecidableEq ι]

theorem addRevision (h : Assigned s projects owner t) {i : ι} (hi : owner i = none) {number : Int}
    {user : String} {r : Revision}
    (ha : t.addRevision now (projects i) number user = some (r, u))
    (hlt : s.greatest (projects i) < number) (hle : number ≤ t.greatest (projects i) + 1) :
    Assigned s projects (Function.update owner i (some r)) u := by
  have hn := h.number_eq ha hlt hle
  obtain ⟨hfree, hr, hu⟩ := addRevision_eq_some.1 ha
  have hproject : r.project = projects i := by rw [hr]
  have hnumber : r.number = number := by rw [hr]
  have hrevisions : u.revisions = t.revisions ++ [r] := by rw [hu]
  have hnew : r ∉ t.revisions := fun hm => hfree r hm hproject hnumber
  refine ⟨fun p => ?_, fun p n hlt' hle' => ?_, fun j r' hj => ?_, fun r' hr' hlt' => ?_,
    fun j k r' hj hk => ?_⟩
  · have hle := h.greatest_le p
    rw [greatest_addRevision ha hn]
    split <;> omega
  · exact mem_numbers_addRevision ha hn (h.gapless p) hlt' hle'
  · rw [hrevisions, List.mem_append, List.mem_singleton]
    by_cases he : j = i
    · subst he
      rw [Function.update_self, Option.some_inj] at hj
      subst hj
      exact ⟨.inr rfl, hproject, hnumber ▸ hlt⟩
    · rw [Function.update_of_ne he] at hj
      obtain ⟨hm, hp, hlt'⟩ := h.mem j r' hj
      exact ⟨.inl hm, hp, hlt'⟩
  · rw [hrevisions, List.mem_append, List.mem_singleton] at hr'
    rcases hr' with hm | rfl
    · obtain ⟨j, hj⟩ := h.owned r' hm hlt'
      have hne : j ≠ i := by
        rintro rfl
        cases hi.symm.trans hj
      exact ⟨j, by rw [Function.update_of_ne hne, hj]⟩
    · exact ⟨i, Function.update_self _ _ _⟩
  · have hold : ∀ j, j ≠ i → Function.update owner i (some r) j = some r' → r' ≠ r := by
      intro j hne hj he
      rw [Function.update_of_ne hne] at hj
      exact hnew (he ▸ (h.mem j r' hj).1)
    by_cases hji : j = i <;> by_cases hki : k = i
    · rw [hji, hki]
    · rw [hji, Function.update_self, Option.some_inj] at hj
      exact absurd hj.symm (hold k hki hk)
    · rw [hki, Function.update_self, Option.some_inj] at hk
      exact absurd hk.symm (hold j hji hj)
    · rw [Function.update_of_ne hji] at hj
      rw [Function.update_of_ne hki] at hk
      exact h.distinct j k r' hj hk

omit [DecidableEq ι] in
/-- The numbers of those who write in a project follow the greatest without a gap. -/
theorem bijOn_number (h : Assigned s projects owner t) (ht : t.Keyed) (number : ι → Int)
    (hnumber : ∀ i r, owner i = some r → r.number = number i) (p : String) :
    Set.BijOn number {i | projects i = p ∧ owner i ≠ none}
      (Set.Icc (s.greatest p + 1) (t.greatest p)) := by
  refine ⟨?_, ?_, ?_⟩
  · rintro i ⟨rfl, hi⟩
    obtain ⟨r, hr⟩ := Option.ne_none_iff_exists'.1 hi
    obtain ⟨hm, hp, hlt⟩ := h.mem i r hr
    have hle := le_greatest (mem_numbers.2 ⟨r, hm, hp, rfl⟩)
    rw [Set.mem_Icc, ← hnumber i r hr]
    omega
  · rintro i ⟨rfl, hi⟩ j ⟨hp, hj⟩ he
    obtain ⟨r, hr⟩ := Option.ne_none_iff_exists'.1 hi
    obtain ⟨r', hr'⟩ := Option.ne_none_iff_exists'.1 hj
    obtain ⟨hm, hrp, -⟩ := h.mem i r hr
    obtain ⟨hm', hrp', -⟩ := h.mem j r' hr'
    have hsame : r = r' := by
      refine ht.revision_ext_number hm hm' (hrp.trans (hp.symm.trans hrp'.symm)) ?_
      rw [hnumber i r hr, hnumber j r' hr', he]
    exact h.distinct i j r hr (hsame ▸ hr')
  · rintro n hn
    rw [Set.mem_Icc] at hn
    obtain ⟨r, hm, hp, hrn⟩ := mem_numbers.1 (h.gapless p n (by omega) hn.2)
    obtain ⟨i, hi⟩ := h.owned r hm (by rw [hp, hrn]; omega)
    refine ⟨i, ⟨?_, ?_⟩, ?_⟩
    · rw [← (h.mem i r hi).2.1, hp]
    · rw [hi]
      exact Option.some_ne_none r
    · rw [← hnumber i r hi, hrn]

end Assigned

end VersionedSite.Store
