import Mathlib.Data.List.Basic
import VersionedSite.Proofs.PendingSaves

/-!
# What is found among saves that are kept

Whatever happens, what is found of a user and project is what was put for them last, as long as it has not
been discarded and its time is not up by exact reckoning (`get_behind_iff`). Neither looking for it, nor
sweeping, nor what happens to others makes a difference, for all that the first two forget what is up.

* `Stands`: what was put last and not discarded.
* `Tracks`: what is kept of that, as an invariant of what happens.
-/

namespace VersionedSite

/-- Where a list that is one longer is taken apart, its last entry is the one that is picked, or follows it. -/
theorem concat_eq_append_cons {α : Type} {l earlier later : List α} {a x : α} :
    l ++ [a] = earlier ++ x :: later ↔
      (later = [] ∧ l = earlier ∧ a = x) ∨ ∃ rest, later = rest ++ [a] ∧ l = earlier ++ x :: rest := by
  constructor
  · intro h
    rcases List.eq_nil_or_concat' later with rfl | ⟨rest, b, rfl⟩
    · obtain ⟨rfl, hx⟩ := List.append_inj' h rfl
      exact .inl ⟨rfl, rfl, List.singleton_inj.1 hx⟩
    · rw [← List.cons_append, ← List.append_assoc] at h
      obtain ⟨rfl, hb⟩ := List.append_inj' h rfl
      exact .inr ⟨rest, by rw [List.singleton_inj.1 hb], rfl⟩
  · rintro (⟨rfl, rfl, rfl⟩ | ⟨rest, rfl, rfl⟩)
    · rfl
    · rw [List.append_assoc, List.cons_append]

namespace PendingSaves

/-- What happens to the saves that are kept. -/
inductive Event where
  | put (user project : String) (draft : FileDraft)
  | get (user project : String)
  | discard (user project : String)
  | sweep
  /-- Milliseconds pass. -/
  | wait (millis : Nat)
  deriving DecidableEq, Repr

namespace Event

/-- The time that passes. -/
def millis : Event → Nat
  | wait millis => millis
  | _ => 0

/-- What an event at a time makes of what is kept. -/
def apply (expiry : Expiry) (now : Int) (p : PendingSaves) : Event → PendingSaves
  | put user project draft => p.put user project { draft with since := now }
  | get user project => (p.get expiry now user project).2
  | discard user project => p.discard user project
  | sweep => p.sweep expiry now
  | wait _ => p

/-- Whether an event puts or discards the save of a user and project. -/
def Replaces (user project : String) : Event → Prop
  | put other elsewhere _ | discard other elsewhere => (user, project) = (other, elsewhere)
  | _ => False

end Event

/-- The time that passes in some events. -/
def elapsed : List Event → Nat
  | [] => 0
  | e :: events => e.millis + elapsed events

/-- The time and what is kept behind some events. -/
def behind (expiry : Expiry) (events : List Event) (start : Int × PendingSaves) : Int × PendingSaves :=
  events.foldl (fun s e => (s.1 + e.millis, e.apply expiry s.1 s.2)) start

/-- Whether a save was put last for a user and project and has not been discarded. -/
def Stands (user project : String) (start : Int) (events : List Event) (save : PendingSave) : Prop :=
  ∃ earlier draft later, events = earlier ++ .put user project draft :: later ∧
    (∀ e ∈ later, ¬ e.Replaces user project) ∧
    save = { draft with since := start + elapsed earlier }

variable {p : PendingSaves} {user project : String} {save : PendingSave} {start now life : Int}
  {events : List Event} {e : Event}

/-! ## What was put last -/

theorem elapsed_append (events later : List Event) :
    elapsed (events ++ later) = elapsed events + elapsed later := by
  induction events with
  | nil => exact (Nat.zero_add _).symm
  | cons e events ih => rw [List.cons_append, elapsed, elapsed, ih, Nat.add_assoc]

theorem behind_concat (expiry : Expiry) (events : List Event) (e : Event) (s : Int × PendingSaves) :
    behind expiry (events ++ [e]) s =
      ((behind expiry events s).1 + e.millis,
        e.apply expiry (behind expiry events s).1 (behind expiry events s).2) := by
  simp [behind]

theorem time_behind (expiry : Expiry) (events : List Event) (start : Int) (p : PendingSaves) :
    (behind expiry events (start, p)).1 = start + elapsed events := by
  induction events using List.reverseRecOn with
  | nil => exact (Int.add_zero start).symm
  | append_singleton events e ih =>
    have hlast : elapsed [e] = e.millis := Nat.add_zero _
    rw [behind_concat, ih, elapsed_append, hlast, Int.natCast_add, Int.add_assoc]

theorem stands_concat :
    Stands user project start (events ++ [e]) save ↔
      (∃ draft, e = .put user project draft ∧ save = { draft with since := start + elapsed events }) ∨
        (¬ e.Replaces user project ∧ Stands user project start events save) := by
  constructor
  · rintro ⟨earlier, draft, later, hevents, hlater, hsave⟩
    obtain ⟨rfl, rfl, rfl⟩ | ⟨rest, rfl, rfl⟩ := concat_eq_append_cons.1 hevents
    · exact .inl ⟨draft, rfl, hsave⟩
    · rw [List.forall_mem_append, List.forall_mem_singleton] at hlater
      exact .inr ⟨hlater.2, earlier, draft, rest, rfl, hlater.1, hsave⟩
  · rintro (⟨draft, rfl, hsave⟩ | ⟨he, earlier, draft, later, rfl, hlater, hsave⟩)
    · exact ⟨events, draft, [], rfl, by simp, hsave⟩
    · refine ⟨earlier, draft, later ++ [e], concat_eq_append_cons.2 (.inr ⟨later, rfl, rfl⟩), ?_, hsave⟩
      exact List.forall_mem_append.2 ⟨hlater, List.forall_mem_singleton.2 he⟩

/-- What does not replace a save leaves it standing. -/
theorem stands_concat_of_not_replaces (he : ¬ e.Replaces user project) :
    Stands user project start (events ++ [e]) save ↔ Stands user project start events save := by
  rw [stands_concat]
  refine ⟨?_, fun h => .inr ⟨he, h⟩⟩
  rintro (⟨draft, rfl, -⟩ | ⟨-, h⟩)
  · exact absurd rfl he
  · exact h

/-! ## What is kept of it -/

/-- A sweep leaves nothing but what was there. -/
theorem find?_of_sweep {expiry : Expiry} (hp : p.keys.Nodup)
    (h : (p.sweep expiry now).find? (user, project) = some save) :
    p.find? (user, project) = some save := by
  cases hfound : p.find? (user, project) with
  | none => cases (find?_sweep_none hfound).symm.trans h
  | some found =>
    rcases find?_sweep_cases hp hfound with hgone | hstays
    · cases hgone.symm.trans h
    · exact hstays.symm.trans h

/-- What is kept at a time for a user and project: nothing but what stands, and that as long as its time is
not up. -/
structure Tracks (life : Int) (user project : String) (start : Int) (events : List Event) (now : Int)
    (p : PendingSaves) : Prop where
  nodup : p.keys.Nodup
  stands : ∀ save, p.find? (user, project) = some save → Stands user project start events save
  kept : ∀ save, Stands user project start events save → now - save.since < life →
    p.find? (user, project) = some save

namespace Tracks

variable (h : Tracks life user project start events now p)

include h

/-- Whatever leaves alone what stands may at most forget what is up. -/
theorem of_find? {q : PendingSaves} (he : ¬ e.Replaces user project) (hnodup : q.keys.Nodup)
    (hsome : ∀ save, q.find? (user, project) = some save → p.find? (user, project) = some save)
    (hkept : ∀ save, p.find? (user, project) = some save → now - save.since < life →
      q.find? (user, project) = some save) :
    Tracks life user project start (events ++ [e]) (now + e.millis) q where
  nodup := hnodup
  stands save hsave := (stands_concat_of_not_replaces he).2 (h.stands save (hsome save hsave))
  kept save hsave hlt := by
    have hlt' : now - save.since < life := by omega
    exact hkept save (h.kept save ((stands_concat_of_not_replaces he).1 hsave) hlt') hlt'

/-- Whatever leaves alone what is found leaves alone what stands. -/
theorem of_same {q : PendingSaves} (he : ¬ e.Replaces user project) (hnodup : q.keys.Nodup)
    (hsame : q.find? (user, project) = p.find? (user, project)) :
    Tracks life user project start (events ++ [e]) (now + e.millis) q :=
  h.of_find? he hnodup (fun _ hsave => hsame ▸ hsave) fun _ hsave _ => hsame ▸ hsave

theorem put (hnow : now = start + elapsed events) (other elsewhere : String) (draft : FileDraft) :
    Tracks life user project start (events ++ [.put other elsewhere draft]) (now + 0)
      (p.put other elsewhere { draft with since := now }) := by
  have hnodup : (p.put other elsewhere { draft with since := now }).keys.Nodup :=
    OrderedMap.nodup_keys_insert h.nodup _ _
  by_cases hkey : (user, project) = (other, elsewhere)
  · obtain ⟨rfl, rfl⟩ := Prod.mk.inj hkey
    have hfound : (p.put user project { draft with since := now }).find? (user, project) =
        some { draft with since := now } := OrderedMap.find?_insert_self p _ _
    refine ⟨hnodup, fun save hsave => ?_, fun save hsave _ => ?_⟩
    · refine stands_concat.2 (.inl ⟨draft, rfl, ?_⟩)
      rw [← hnow]
      exact Option.some.inj (hsave.symm.trans hfound)
    · obtain ⟨_, hput, hsave⟩ | ⟨hne, -⟩ := stands_concat.1 hsave
      · cases hput
        rw [hfound, hsave, hnow]
      · exact absurd rfl hne
  · exact h.of_same hkey hnodup (find?_put_of_ne p _ hkey)

theorem get (other elsewhere : String) :
    Tracks life user project start (events ++ [.get other elsewhere]) (now + 0)
      (p.get (.exact life) now other elsewhere).2 := by
  have hnodup : (p.get (.exact life) now other elsewhere).2.keys.Nodup := nodup_keys_get h.nodup _ _ _ _
  by_cases hkey : (user, project) = (other, elsewhere)
  · obtain ⟨rfl, rfl⟩ := Prod.mk.inj hkey
    cases hfound : p.find? (user, project) with
    | none =>
      rw [get_of_find?_none hfound]
      exact h.of_same id h.nodup rfl
    | some found =>
      cases hup : (Expiry.exact life).isUp found.since now with
      | false =>
        rw [get_of_find? hfound hup]
        exact h.of_same id h.nodup rfl
      | true =>
        -- What is up is forgotten, and nothing else was there.
        rw [get_of_isUp hfound hup] at hnodup ⊢
        rw [Expiry.isUp_exact] at hup
        have hgone : (p.discard user project).find? (user, project) = none :=
          OrderedMap.find?_erase_self p _
        refine h.of_find? id hnodup (fun save hsave => ?_) fun save hsave hlt => ?_
        · cases hgone.symm.trans hsave
        · cases hfound.symm.trans hsave
          omega
  · exact h.of_same id hnodup (find?_get_of_ne hkey)

theorem discard (other elsewhere : String) :
    Tracks life user project start (events ++ [.discard other elsewhere]) (now + 0)
      (p.discard other elsewhere) := by
  have hnodup : (p.discard other elsewhere).keys.Nodup := OrderedMap.nodup_keys_filter h.nodup _
  by_cases hkey : (user, project) = (other, elsewhere)
  · obtain ⟨rfl, rfl⟩ := Prod.mk.inj hkey
    have hgone : (p.discard user project).find? (user, project) = none := OrderedMap.find?_erase_self p _
    refine ⟨hnodup, fun save hsave => ?_, fun save hsave _ => ?_⟩
    · cases hgone.symm.trans hsave
    · obtain ⟨_, hput, -⟩ | ⟨hne, -⟩ := stands_concat.1 hsave
      · cases hput
      · exact absurd rfl hne
  · exact h.of_same hkey hnodup (find?_discard_of_ne p hkey)

theorem sweep : Tracks life user project start (events ++ [.sweep]) (now + 0) (p.sweep (.exact life) now) := by
  refine h.of_find? id (OrderedMap.nodup_keys_filter h.nodup _) (fun save => find?_of_sweep h.nodup)
    fun save hsave hlt => find?_sweep hsave ?_
  rw [Expiry.isDue_exact, ← Bool.not_eq_true, Expiry.isUp_exact]
  omega

/-- An event leaves what stands behind it, as long as its time is not up. -/
theorem apply (hnow : now = start + elapsed events) (e : Event) :
    Tracks life user project start (events ++ [e]) (now + e.millis) (e.apply (.exact life) now p) := by
  cases e with
  | put other elsewhere draft => exact h.put hnow other elsewhere draft
  | get other elsewhere => exact h.get other elsewhere
  | discard other elsewhere => exact h.discard other elsewhere
  | sweep => exact h.sweep
  | wait millis => exact h.of_same id h.nodup rfl

end Tracks

theorem tracks_behind (life start : Int) (events : List Event) (user project : String) :
    Tracks life user project start events (start + elapsed events)
      (behind (.exact life) events (start, .empty)).2 := by
  induction events using List.reverseRecOn with
  | nil =>
    refine ⟨List.nodup_nil, fun save hsave => (by cases hsave), ?_⟩
    rintro save ⟨earlier, draft, later, hevents, -⟩
    cases earlier <;> cases hevents
  | append_singleton events e ih =>
    have htime := time_behind (.exact life) (events ++ [e]) start .empty
    rw [← htime, behind_concat, time_behind]
    exact ih.apply rfl e

theorem get_exact_iff :
    (p.get (.exact life) now user project).1 = some save ↔
      p.find? (user, project) = some save ∧ now - save.since < life := by
  cases hfound : p.find? (user, project) with
  | none => simp [get_of_find?_none hfound]
  | some found =>
    cases hup : (Expiry.exact life).isUp found.since now with
    | false =>
      rw [get_of_find? hfound hup]
      rw [← Bool.not_eq_true, Expiry.isUp_exact] at hup
      refine ⟨fun h => ⟨h, ?_⟩, And.left⟩
      cases h
      omega
    | true =>
      rw [get_of_isUp hfound hup]
      rw [Expiry.isUp_exact] at hup
      refine ⟨fun h => (by cases h), fun ⟨h, hlt⟩ => ?_⟩
      cases h
      omega

/-- From an empty table on, what is found for a user and project is the save that was put last for them, if
none was discarded since and less than the time that saves are kept for has passed; nothing else that happens
matters. -/
theorem get_behind_iff (life start : Int) (events : List Event) (user project : String)
    (save : PendingSave) :
    let (now, p) := behind (.exact life) events (start, .empty)
    (p.get (.exact life) now user project).1 = some save ↔
      ∃ earlier draft later, events = earlier ++ .put user project draft :: later ∧
        (∀ e ∈ later, ¬ e.Replaces user project) ∧
        save = { draft with since := start + elapsed earlier } ∧ elapsed later < life := by
  have hnow := time_behind (.exact life) events start .empty
  have htracks := tracks_behind life start events user project
  generalize behind (.exact life) events (start, .empty) = s at hnow htracks
  obtain ⟨now, p⟩ := s
  dsimp only at hnow htracks ⊢
  subst hnow
  have helapsed : ∀ earlier draft later,
      elapsed (earlier ++ .put user project draft :: later) = elapsed earlier + elapsed later := by
    intro earlier draft later
    simp only [elapsed_append, elapsed, Event.millis, Nat.zero_add]
  rw [get_exact_iff]
  constructor
  · rintro ⟨hfound, hlt⟩
    obtain ⟨earlier, draft, later, rfl, hlater, rfl⟩ := htracks.stands save hfound
    refine ⟨earlier, draft, later, rfl, hlater, rfl, ?_⟩
    rw [helapsed] at hlt
    dsimp only at hlt
    omega
  · rintro ⟨earlier, draft, later, rfl, hlater, rfl, hlt⟩
    have hage : start + elapsed (earlier ++ .put user project draft :: later) -
        (start + elapsed earlier) < life := by
      rw [helapsed]
      omega
    exact ⟨htracks.kept _ ⟨earlier, draft, later, rfl, hlater, rfl⟩ hage, hage⟩

end PendingSaves

end VersionedSite
