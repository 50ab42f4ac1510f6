import VersionedSite.Proofs.Clock
import VersionedSite.Proofs.Service.History

/-!
# Repeating a write that failed

What a write that failed keeps is not lost before it is written, and it is written once. Whatever others
do, and however often what is kept is looked through, a user's retries find what the save kept as long as
they come in time. The first that is successful saves exactly that, at a new number; all after it find
nothing (`retry_settles`).

* `Kept.call`, `Kept.sweep`, `Kept.untouched`: what each event leaves of what was kept.
* `Course.kept`: what a course of events leaves of it.
* `Course.find?_eq_none`: nothing is found behind what was saved.
-/

namespace VersionedSite.Service

open Program Store
open Markup.Outline (ofMarkup)

/-- Something that happens. -/
inductive Event where
  /-- A call that may write a file, with its result. -/
  | call (o : Occasion) (result : Except SiteError Saved)
  /-- All that is kept is looked through. -/
  | sweep (now : Int)
  /-- Something that does not concern what is kept. -/
  | aside (now : Int)

namespace Event

/-- The time in milliseconds. -/
def now : Event → Int
  | call o _ => o.now
  | sweep now => now
  | aside now => now

/-- Whether an event is a retry of a user on a project. -/
def Retries (user project : String) : Event → Prop
  | call o _ => o.call = .retry project user
  | _ => False

/-- Whether an event is a save of a user on a project that fails in its write. -/
def FailsSave (user project : String) : Event → Prop
  | call o (.error (.writeFailed _)) =>
    ∃ destination content, o.call = .save project user destination content
  | _ => False

/-- Whether an event is a retry of a user on a project that is successful. -/
def Succeeds (user project : String) : Event → Prop
  | call o (.ok _) => o.call = .retry project user
  | _ => False

/-- The time of the last failure behind an event: only a retry that fails in its write changes it. -/
def failure (user project : String) (since : Int) : Event → Int
  | call ⟨.retry p u, now, _⟩ (.error (.writeFailed _)) =>
    if p = project ∧ u = user then now else since
  | _ => since

end Event

/-- The time of the last failure behind some events. -/
def lastFailure (user project : String) (since : Int) (events : List Event) : Int :=
  events.foldl (fun since e => e.failure user project since) since

/-- Whether each retry of a user on a project comes before what is kept since the last failure is up. -/
def InTime (settings : Settings) (user project : String) : (since : Int) → List Event → Prop
  | _, [] => True
  | since, e :: rest =>
    (e.Retries user project → e.now - since < 1000 * settings.pendingSaveTtlSeconds) ∧
      InTime settings user project (e.failure user project since) rest

/-- Whether a user's retries on a project come in time, from a save that failed in its write on. -/
structure Punctual (settings : Settings) (user project : String) (since : Int) (events : List Event) :
    Prop where
  /-- The clock never goes back. -/
  clock : (since :: events.map Event.now).Pairwise (· ≤ ·)
  /-- It shows times that rows can hold. -/
  dates : ∀ time ∈ since :: events.map Event.now, isDatable time = true
  /-- No pause behind a failure takes up the time that things are kept for. -/
  inTime : InTime settings user project since events

/-- Courses of events, one after another. -/
inductive Course (read : Markup.OutlineReader) (settings : Settings) (s : Service) :
    List Event → Service → Prop where
  | start : Course read settings s [] s
  | call {events : List Event} {t : Service} (h : Course read settings s events t) (o : Occasion)
      (hp : o.IsPlausible t) :
      Course read settings s (events ++ [.call o (o.outcome read settings t).1]) (o.outcome read settings t).2
  | sweep {events : List Event} {t : Service} (h : Course read settings s events t) (now : Int) :
      Course read settings s (events ++ [.sweep now])
        { t with
          pending := t.pending.sweep (Terms.ofSettings settings now).pendingExpiry now }
  | aside {events : List Event} {t u : Service} (h : Course read settings s events t) (now : Int)
      (hu : u.Healthy) (hp : u.pending = t.pending) :
      Course read settings s (events ++ [.aside now]) u

variable {terms : Terms} {stale : Int → Prop} {read : Markup.OutlineReader} {settings : Settings}
  {s t u : Service} {events : List Event} {user project other elsewhere : String} {draft : FileDraft}
  {since : Int}

/-! ## Times -/

theorem lastFailure_concat (user project : String) (since : Int) (events : List Event) (e : Event) :
    lastFailure user project since (events ++ [e]) =
      e.failure user project (lastFailure user project since events) := by
  simp [lastFailure]

theorem inTime_concat {e : Event} :
    InTime settings user project since (events ++ [e]) ↔
      InTime settings user project since events ∧ (e.Retries user project →
        e.now - lastFailure user project since events < 1000 * settings.pendingSaveTtlSeconds) := by
  induction events generalizing since with
  | nil => simp [InTime, lastFailure]
  | cons d events ih =>
    rw [List.cons_append, InTime, InTime, ih, and_assoc]
    rfl

theorem Event.failure_cases (user project : String) (since : Int) (e : Event) :
    e.failure user project since = since ∨ e.failure user project since = e.now := by
  unfold failure
  split
  · split
    · exact .inr rfl
    · exact .inl rfl
  · exact .inl rfl

theorem Event.failure_of_not_retries {e : Event} (h : ¬ e.Retries user project) :
    e.failure user project since = since := by
  unfold failure
  split
  · split
    · rename_i hk
      exact absurd (by rw [hk.1, hk.2]; rfl) h
    · rfl
  · rfl

theorem Event.failure_of_error {o : Occasion} {e : SiteError} (h : ∀ path, e ≠ .writeFailed path) :
    (call o (.error e)).failure user project since = since := by
  unfold failure
  split
  · rename_i he
    cases he
    exact absurd rfl (h _)
  · rfl

theorem Event.failure_of_writeFailed {o : Occasion} {path : String} (h : o.call = .retry project user) :
    (call o (.error (.writeFailed path))).failure user project since = o.now := by
  obtain ⟨call, now, faults⟩ := o
  cases h
  simp [failure]

theorem lastFailure_mem (user project : String) (since : Int) (events : List Event) :
    lastFailure user project since events ∈ since :: events.map Event.now := by
  induction events using List.reverseRecOn with
  | nil => exact List.mem_singleton.2 rfl
  | append_singleton events e ih =>
    rw [lastFailure_concat, List.map_append, ← List.cons_append, List.mem_append]
    rcases e.failure_cases user project (lastFailure user project since events) with he | he
    · rw [he]
      exact .inl ih
    · rw [he]
      exact .inr (List.mem_singleton.2 rfl)

theorem mem_times_concat {time : Int} {e : Event} (h : time ∈ since :: events.map Event.now) :
    time ∈ since :: (events ++ [e]).map Event.now := by
  rw [List.map_append, ← List.cons_append]
  exact List.mem_append_left _ h

namespace Punctual

theorem isDatable_lastFailure (h : Punctual settings user project since events) :
    isDatable (lastFailure user project since events) = true :=
  h.dates _ (lastFailure_mem user project since events)

theorem of_concat {e : Event} (h : Punctual settings user project since (events ++ [e])) :
    Punctual settings user project since events ∧
      (∀ time ∈ since :: events.map Event.now, time ≤ e.now) ∧ isDatable e.now = true ∧
      (e.Retries user project →
        e.now - lastFailure user project since events < 1000 * settings.pendingSaveTtlSeconds) := by
  have htimes : since :: (events ++ [e]).map Event.now = (since :: events.map Event.now) ++ [e.now] := by
    simp
  obtain ⟨hclock, hdates, hin⟩ := h
  rw [htimes] at hclock hdates
  rw [List.pairwise_append] at hclock
  obtain ⟨hin, hretry⟩ := inTime_concat.1 hin
  refine ⟨⟨hclock.1, ?_, hin⟩, ?_, ?_, hretry⟩
  · exact fun time ht => hdates time (List.mem_append_left _ ht)
  · exact fun time ht => hclock.2.2 time ht e.now (List.mem_singleton.2 rfl)
  · exact hdates e.now (List.mem_append_right _ (List.mem_singleton.2 rfl))

end Punctual

/-! ## Calls -/

theorem Occasion.ends_outcome (read : Markup.OutlineReader) (settings : Settings) (o : Occasion)
    (s : Service) :
    (o.call.program read settings).Ends (.ofSettings settings o.now) (fun _ => True) s
      (o.outcome read settings s).1 (o.outcome read settings s).2 :=
  ends_of_run (o.faults.atTime o.now) fun _ _ => trivial

theorem Occasion.ends_retry {o : Occasion} (h : o.call = .retry project user)
    (read : Markup.OutlineReader) (settings : Settings) (s : Service) :
    (retryFor settings project user).Ends (.ofSettings settings o.now) (fun _ => True) s
      (o.outcome read settings s).1 (o.outcome read settings s).2 := by
  have hends := o.ends_outcome read settings s
  rwa [h] at hends

/-- No user has two saves kept on a project. -/
theorem nodup_keys_perform (h : s.pending.keys.Nodup) (d : Option Disturbance) (st : Step) :
    (s.perform terms d st).2.pending.keys.Nodup := by
  have hstep := pendingStep_perform terms d st s
  generalize (s.perform terms d st).2.pending = pending at hstep
  cases hstep with
  | nothing => exact h
  | find => exact PendingSaves.nodup_keys_get h _ _ _ _
  | keep => exact OrderedMap.nodup_keys_insert h _ _
  | forget => exact OrderedMap.nodup_keys_filter h _

theorem Program.nodup_keys_of_ends {α : Type} {p : Program α} {a : α} (h : s.pending.keys.Nodup)
    (he : p.Ends terms stale s a t) : t.pending.keys.Nodup := by
  induction p generalizing s with
  | done =>
    obtain ⟨-, rfl⟩ := he
    exact h
  | step st next ih =>
    obtain ⟨d, -, he⟩ := he
    exact ih _ (nodup_keys_perform h d st) he

theorem Persisted.find?_of_ne {a : Except SiteError Saved}
    (hp : Persisted terms stale elsewhere other draft s a t) (h : (user, project) ≠ (other, elsewhere)) :
    t.pending.find? (user, project) = s.pending.find? (user, project) := by
  cases hp with
  | unnumbered => rfl
  | failed => exact PendingSaves.find?_put_of_ne _ _ h
  | saved => rfl

/-- Only a write that fails keeps anything. -/
theorem Persisted.pending_eq {a : Except SiteError Saved}
    (hp : Persisted terms stale project user draft s a t)
    (h : ∀ path, a ≠ .error (.writeFailed path)) : t.pending = s.pending := by
  cases hp with
  | unnumbered => rfl
  | failed => exact absurd rfl (h _)
  | saved => rfl

theorem Persisted.draft_eq {saved : Saved}
    (hp : Persisted terms stale project user draft s (.ok saved) t) : saved.draft = draft := by
  cases hp
  rfl

theorem saveFor_pending_eq {destination content : String} {a : Except SiteError Saved}
    (he : (saveFor read settings project user destination content).Ends terms stale s a t)
    (h : ∀ path, a ≠ .error (.writeFailed path)) : t.pending = s.pending := by
  obtain ⟨-, rfl, -⟩ | ⟨-, e, -, -, rfl⟩ | ⟨-, draft, -, hp⟩ := saveFor_ends he
  · rfl
  · rfl
  · exact hp.pending_eq h

theorem saveFor_find?_of_ne {destination content : String} {a : Except SiteError Saved}
    (he : (saveFor read settings elsewhere other destination content).Ends terms stale s a t)
    (h : (user, project) ≠ (other, elsewhere)) :
    t.pending.find? (user, project) = s.pending.find? (user, project) := by
  obtain ⟨-, rfl, -⟩ | ⟨-, e, -, -, rfl⟩ | ⟨-, draft, -, hp⟩ := saveFor_ends he
  · rfl
  · rfl
  · exact hp.find?_of_ne h

theorem retryFor_find?_of_ne {a : Except SiteError Saved}
    (he : (retryFor settings elsewhere other).Ends terms stale s a t)
    (h : (user, project) ≠ (other, elsewhere)) :
    t.pending.find? (user, project) = s.pending.find? (user, project) := by
  have hget : (s.pending.get terms.pendingExpiry terms.now other elsewhere).2.find? (user, project) =
      s.pending.find? (user, project) := PendingSaves.find?_get_of_ne h
  obtain ⟨-, -, rfl⟩ | ⟨save, -, ⟨e, -, hp⟩ | ⟨saved, u, -, hp, rfl⟩⟩ := retryFor_ends he
  · exact hget
  · exact (hp.find?_of_ne h).trans hget
  · exact ((PendingSaves.find?_discard_of_ne _ h).trans (hp.find?_of_ne h)).trans hget

/-- Calls that are neither retries of a user on a project nor saves that fail leave alone what is kept
for them. -/
theorem Occasion.find?_outcome (o : Occasion)
    (hr : ¬ (Event.call o (o.outcome read settings s).1).Retries user project)
    (hs : ¬ (Event.call o (o.outcome read settings s).1).FailsSave user project) :
    (o.outcome read settings s).2.pending.find? (user, project) = s.pending.find? (user, project) := by
  have hends := o.ends_outcome read settings s
  obtain ⟨call, now, faults⟩ := o
  cases call with
  | save elsewhere other destination content =>
    by_cases hk : (user, project) = (other, elsewhere)
    · obtain ⟨rfl, rfl⟩ := Prod.mk.injEq .. ▸ hk
      have hpending := saveFor_pending_eq hends fun path ha => hs (by
        rw [ha]
        exact ⟨destination, content, rfl⟩)
      rw [hpending]
    · exact saveFor_find?_of_ne hends hk
  | retry elsewhere other =>
    refine retryFor_find?_of_ne hends fun hk => hr ?_
    obtain ⟨rfl, rfl⟩ := Prod.mk.injEq .. ▸ hk
    rfl

/-- A retry writes what is kept if its time is not up, and forgets it otherwise. -/
theorem retryFor_kept {a : Except SiteError Saved}
    (he : (retryFor settings project user).Ends terms stale s a t)
    (hk : s.pending.find? (user, project) = some { draft with since }) :
    (terms.pendingExpiry.isUp since terms.now = true ∧ a = .error (.nothingPending project) ∧
      t.pending.find? (user, project) = none) ∨
    (∃ e, a = .error e ∧ Persisted terms stale project user draft s (.error e) t) ∨
      ∃ saved u, a = .ok saved ∧ Persisted terms stale project user draft s (.ok saved) u ∧
        t = { u with pending := u.pending.discard user project } := by
  have hends := retryFor_ends he
  cases hup : terms.pendingExpiry.isUp since terms.now with
  | true =>
    rw [PendingSaves.get_of_isUp hk hup] at hends
    obtain ⟨-, ha, rfl⟩ | ⟨save, hsave, -⟩ := hends
    · exact .inl ⟨rfl, ha, OrderedMap.find?_erase_self _ _⟩
    · cases hsave
  | false =>
    rw [PendingSaves.get_of_find? hk hup] at hends
    obtain ⟨hnone, -⟩ | ⟨save, hsave, hends⟩ := hends
    · cases hnone
    · cases hsave
      exact .inr hends

/-- Where nothing is kept a retry does nothing. -/
theorem retryFor_none {a : Except SiteError Saved}
    (he : (retryFor settings project user).Ends terms stale s a t)
    (hk : s.pending.find? (user, project) = none) :
    a = .error (.nothingPending project) ∧ t = s := by
  have hends := retryFor_ends he
  rw [PendingSaves.get_of_find?_none hk] at hends
  obtain ⟨-, ha, ht⟩ | ⟨save, hsave, -⟩ := hends
  · exact ⟨ha, ht⟩
  · cases hsave

/-- A retry that fails leaves what is kept; only a write that fails makes it count from then on. -/
theorem Persisted.find?_of_error {e : SiteError}
    (hp : Persisted terms stale project user draft s (.error e) t)
    (hk : s.pending.find? (user, project) = some { draft with since }) :
    (∃ path, e = .writeFailed path ∧
      t.pending.find? (user, project) = some { draft with since := terms.now }) ∨
    ((e.kind = .allocationFailed ∨ e.kind = .general) ∧
      t.pending.find? (user, project) = some { draft with since }) := by
  cases hp with
  | unnumbered _ he => exact .inr ⟨he, hk⟩
  | failed => exact .inl ⟨_, rfl, OrderedMap.find?_insert_self _ _ _⟩

theorem Persisted.find?_failure {o : Occasion} {e : SiteError}
    (hp : Persisted (.ofSettings settings o.now) stale project user draft s (.error e) t)
    (hcall : o.call = .retry project user)
    (hk : s.pending.find? (user, project) = some { draft with since }) :
    t.pending.find? (user, project) =
      some { draft with since := (Event.call o (.error e)).failure user project since } := by
  obtain ⟨path, rfl, hpending⟩ | ⟨he, hpending⟩ := hp.find?_of_error hk
  · rw [Event.failure_of_writeFailed hcall]
    exact hpending
  · rw [Event.failure_of_error]
    · exact hpending
    · rintro path rfl
      rcases he with he | he <;> cases he

/-! ## Courses -/

theorem Healthy.sweep (h : s.Healthy) (expiry : Expiry) (now : Int) :
    Healthy { s with pending := s.pending.sweep expiry now } :=
  { h with pending := fun e he => h.pending e (List.mem_filter.1 he).1 }

theorem Course.healthy (h : Course read settings s events t) (hs : s.Healthy) : t.Healthy := by
  induction h with
  | start => exact hs
  | call _ o hp ih => exact (o.follows ih.follows hp).toHealthy
  | sweep _ now ih => exact ih.sweep _ now
  | aside _ _ hu _ _ => exact hu

theorem Course.nodup_keys (h : Course read settings s events t) (hs : s.pending.keys.Nodup) :
    t.pending.keys.Nodup := by
  induction h with
  | start => exact hs
  | @call events t _ o _ ih => exact nodup_keys_of_ends ih (o.ends_outcome read settings t)
  | sweep _ _ ih => exact OrderedMap.nodup_keys_filter ih _
  | aside _ _ _ hp ih =>
    rw [hp]
    exact ih

/-- Nothing is found where nothing was kept and no save has failed. -/
theorem Course.find?_eq_none (h : Course read settings s events t)
    (hk : s.pending.find? (user, project) = none) (hspares : ∀ e ∈ events, ¬ e.FailsSave user project) :
    t.pending.find? (user, project) = none := by
  induction h with
  | start => exact hk
  | @call events t _ o _ ih =>
    rw [List.forall_mem_append, List.forall_mem_singleton] at hspares
    have hnone := ih hspares.1
    by_cases hr : (Event.call o (o.outcome read settings t).1).Retries user project
    · rw [(retryFor_none (Occasion.ends_retry hr read settings t) hnone).2]
      exact hnone
    · rw [o.find?_outcome hr hspares.2]
      exact hnone
  | sweep _ _ ih =>
    rw [List.forall_mem_append] at hspares
    exact PendingSaves.find?_sweep_none (ih hspares.1)
  | aside _ _ _ hp ih =>
    rw [List.forall_mem_append] at hspares
    rw [hp]
    exact ih hspares.1

/-- What there is of what a save kept, behind some events in which it was not saved. -/
structure Kept (settings : Settings) (user project : String) (draft : FileDraft) (since : Int)
    (events : List Event) (t : Service) : Prop where
  /-- It is there as it was, or nothing is there. -/
  find?_cases : t.pending.find? (user, project) = none ∨ t.pending.find? (user, project) =
    some { draft with since := lastFailure user project since events }
  /-- It is there for as long as a retry would come in time. -/
  find?_ne_none : Punctual settings user project since events → ∀ now, isDatable now = true →
    (∀ time ∈ since :: events.map Event.now, time ≤ now) →
      now - lastFailure user project since events < 1000 * settings.pendingSaveTtlSeconds →
        t.pending.find? (user, project) ≠ none

namespace Kept

theorem start (h : s.pending.find? (user, project) = some { draft with since }) :
    Kept settings user project draft since [] s :=
  ⟨.inr h, fun _ _ _ _ _ hnone => by cases h.symm.trans hnone⟩

variable (h : Kept settings user project draft since events t)

include h

/-- What does not touch what was kept, and is no retry, changes nothing. -/
theorem untouched {e : Event} (hsame : u.pending.find? (user, project) = t.pending.find? (user, project))
    (hr : ¬ e.Retries user project) :
    Kept settings user project draft since (events ++ [e]) u := by
  refine ⟨?_, fun hm now hdate hnow hlt => ?_⟩
  · rw [lastFailure_concat, Event.failure_of_not_retries hr, hsame]
    exact h.find?_cases
  · rw [lastFailure_concat, Event.failure_of_not_retries hr] at hlt
    rw [hsame]
    exact h.find?_ne_none hm.of_concat.1 now hdate (fun time ht => hnow time (mem_times_concat ht)) hlt

theorem call {o : Occasion} (hspares : ¬ (Event.call o (o.outcome read settings t).1).FailsSave user project)
    (hunsaved : ¬ (Event.call o (o.outcome read settings t).1).Succeeds user project) :
    Kept settings user project draft since (events ++ [.call o (o.outcome read settings t).1])
      (o.outcome read settings t).2 := by
  by_cases hr : (Event.call o (o.outcome read settings t).1).Retries user project
  · have hcall : o.call = .retry project user := hr
    have hends := Occasion.ends_retry hcall read settings t
    rcases h.find?_cases with hnone | hfound
    · rw [(retryFor_none hends hnone).2]
      refine ⟨.inl hnone, fun hm => ?_⟩
      obtain ⟨hm, hle, hdate, hlt⟩ := hm.of_concat
      exact absurd hnone (h.find?_ne_none hm _ hdate hle (hlt hr))
    · obtain ⟨hup, -, hnone⟩ | ⟨e, ha, hp⟩ | ⟨saved, u, ha, -⟩ := retryFor_kept hends hfound
      · refine ⟨.inl hnone, fun hm => ?_⟩
        obtain ⟨hm, hle, hdate, hlt⟩ := hm.of_concat
        cases hup.symm.trans (Expiry.isUp_inSeconds_of_lt hm.isDatable_lastFailure hdate (hlt hr))
      · have hkept := hp.find?_failure hcall hfound
        rw [ha]
        refine ⟨.inr ?_, fun _ _ _ _ _ hnone => by cases hkept.symm.trans hnone⟩
        rw [lastFailure_concat]
        exact hkept
      · rw [ha] at hunsaved
        exact absurd hcall hunsaved
  · exact h.untouched (o.find?_outcome hr hspares) hr

theorem sweep (hn : t.pending.keys.Nodup) (time : Int) :
    Kept settings user project draft since (events ++ [.sweep time])
      { t with pending := t.pending.sweep (Terms.ofSettings settings time).pendingExpiry time } := by
  refine ⟨?_, fun hm now hdate hnow hlt => ?_⟩
  · rw [lastFailure_concat, Event.failure_of_not_retries id]
    rcases h.find?_cases with hnone | hfound
    · exact .inl (PendingSaves.find?_sweep_none hnone)
    · exact PendingSaves.find?_sweep_cases hn hfound
  · rw [lastFailure_concat, Event.failure_of_not_retries id] at hlt
    obtain ⟨hm, hle, hdate', -⟩ := hm.of_concat
    -- The sweep comes before the retry that would be in time.
    have htime : time ≤ now := hnow time (by simp [Event.now])
    have hlt' : time - lastFailure user project since events <
        1000 * settings.pendingSaveTtlSeconds := by omega
    have hfound := h.find?_cases.resolve_left (h.find?_ne_none hm time hdate' hle hlt')
    have hstays := PendingSaves.find?_sweep hfound
      (Expiry.isDue_inSeconds_of_lt hm.isDatable_lastFailure hdate' hlt')
    exact fun hnone => by cases hstays.symm.trans hnone

end Kept

/-- What a save kept is not lost in any course of events. -/
theorem Course.kept (h : Course read settings s events t) (hn : s.pending.keys.Nodup)
    (hk : s.pending.find? (user, project) = some { draft with since })
    (hspares : ∀ e ∈ events, ¬ e.FailsSave user project)
    (hunsaved : ∀ e ∈ events, ¬ e.Succeeds user project) :
    Kept settings user project draft since events t := by
  induction h with
  | start => exact .start hk
  | call _ o _ ih =>
    rw [List.forall_mem_append, List.forall_mem_singleton] at hspares hunsaved
    exact (ih hspares.1 hunsaved.1).call hspares.2 hunsaved.2
  | sweep h now ih =>
    rw [List.forall_mem_append] at hspares hunsaved
    exact (ih hspares.1 hunsaved.1).sweep (h.nodup_keys hn) now
  | aside _ _ _ hp ih =>
    rw [List.forall_mem_append] at hspares hunsaved
    exact (ih hspares.1 hunsaved.1).untouched (by rw [hp]) id

/-! ## The retry that is successful -/

/-- What a retry that is successful leaves. -/
structure Settled (read : Markup.OutlineReader) (settings : Settings) (user project : String)
    (draft : FileDraft) (t : Service) (saved : Saved) (u : Service) : Prop where
  draft_eq : saved.draft = draft
  /-- The number is behind all that had been given out. -/
  number_lt : ∀ r ∈ t.store.revisions, r.project = project → r.number < saved.revision.number
  /-- What is saved is to be seen, and nothing else is new. -/
  seen_eq : u.store.seen project = t.store.seen project ++ [saved.visible]
  forgotten : u.pending.find? (user, project) = none
  /-- Whatever happens, as long as no other save fails there is nothing more to retry. -/
  once : ∀ (later : List Event) (v : Service) (again : Occasion), Course read settings u later v →
    (∀ e ∈ later, ¬ e.FailsSave user project) → again.call = .retry project user →
      again.outcome read settings v = (.error (.nothingPending project), v)

/-- A save whose write fails keeps what it was to write. -/
theorem Occasion.kept_of_writeFailed {save : Occasion} {destination content path : String}
    (hcall : save.call = .save project user destination content)
    (hfailed : (save.outcome read settings s).1 = .error (.writeFailed path)) :
    ∃ draft, prepare read settings destination content = .ok draft ∧
      (save.outcome read settings s).2.pending.find? (user, project) =
        some { draft with since := save.now } := by
  have hends := save.ends_outcome read settings s
  rw [hcall, hfailed] at hends
  obtain ⟨-, -, ha⟩ | ⟨-, e, hprepare, ha, -⟩ | ⟨-, draft, hdraft, hp⟩ := saveFor_ends hends
  · cases ha
  · cases ha
    exact absurd rfl (kind_of_prepare_error hprepare).2
  · refine ⟨draft, hdraft, ?_⟩
    generalize (save.outcome read settings s).2 = t at hp
    cases hp with
    | unnumbered _ he => rcases he with he | he <;> cases he
    | failed => exact OrderedMap.find?_insert_self _ _ _

/-- What a retry that is successful leaves, if it has written what was kept and nothing is kept any
more. -/
theorem Occasion.settled {saved : Saved} (ht : t.Healthy) {retry : Occasion}
    (hretry : retry.call = .retry project user) (hfeasible : retry.IsPlausible t)
    (ha : (retry.outcome read settings t).1 = .ok saved) (hdraft : saved.draft = draft)
    (hpending : (retry.outcome read settings t).2.pending.find? (user, project) = none) :
    Settled read settings user project draft t saved (retry.outcome read settings t).2 := by
  have hfollows : Follows t [(project, .ok saved)] (retry.outcome read settings t).2 := by
    have h : Follows t ([] ++ [(retry.call.project, (retry.outcome read settings t).1)]) _ :=
      Occasion.follows ht.follows retry hfeasible
    rwa [ha, hretry] at h
  have hsaved : savedIn [(project, .ok saved)] project = [saved.visible] := by
    simp [savedIn, savedBy]
  refine ⟨hdraft, fun r hr hp => ?_, ?_, hpending, fun later v again hlater hspares hcall => ?_⟩
  · have hle : r.number ≤ t.store.greatest project := le_greatest (mem_numbers.2 ⟨r, hr, hp, rfl⟩)
    refine hle.trans_lt (hfollows.greatest_lt project saved.visible ?_)
    rw [hsaved]
    exact List.mem_singleton.2 rfl
  · rw [hfollows.seen_eq, hsaved]
  · have hnone := hlater.find?_eq_none hpending hspares
    exact Prod.ext_iff.2 (retryFor_none (Occasion.ends_retry hcall read settings v) hnone)

/-- A retry that comes in time does not find nothing. -/
theorem Kept.ne_nothingPending (h : Kept settings user project draft since events t) {retry : Occasion}
    (hretry : retry.call = .retry project user) {a : Except SiteError Saved}
    (hm : Punctual settings user project since (events ++ [.call retry a])) :
    (retry.outcome read settings t).1 ≠ .error (.nothingPending project) := by
  obtain ⟨hm, hle, hdate, hlt⟩ := hm.of_concat
  have hfound := h.find?_cases.resolve_left (h.find?_ne_none hm _ hdate hle (hlt hretry))
  have hup := Expiry.isUp_inSeconds_of_lt hm.isDatable_lastFailure hdate (hlt hretry)
  intro ha
  obtain ⟨hup', -⟩ | ⟨e, he, hp⟩ | ⟨saved, v, he, -⟩ :=
    retryFor_kept (Occasion.ends_retry hretry read settings t) hfound
  · cases hup.symm.trans hup'
  · cases ha.symm.trans he
    obtain ⟨_, he, -⟩ | ⟨he | he, -⟩ := hp.find?_of_error hfound <;> cases he
  · cases ha.symm.trans he

/-- What a save kept whose write failed, before it is saved. A retry that comes in time does not find
nothing. Whenever it comes, if it fails the same is kept, since then if its write failed; if it is
successful it saves exactly that, behind all that had been given out, and no retry after it does
anything. -/
theorem retry_settles {ids : IdSupply} {earlier between : List Event} {save retry : Occasion}
    {destination content path : String}
    (hearlier : Course read settings (start settings ids) earlier s)
    (hsave : save.call = .save project user destination content) (hfeasible : save.IsPlausible s)
    (hfailed : (save.outcome read settings s).1 = .error (.writeFailed path))
    (hbetween : Course read settings (save.outcome read settings s).2 between t)
    (hspares : ∀ e ∈ between, ¬ e.FailsSave user project)
    (hunsaved : ∀ e ∈ between, ¬ e.Succeeds user project)
    (hretry : retry.call = .retry project user) (hretryFeasible : retry.IsPlausible t) :
    (Punctual settings user project save.now (between ++ [.call retry (retry.outcome read settings t).1]) →
      (retry.outcome read settings t).1 ≠ .error (.nothingPending project)) ∧
    ∃ draft, prepare read settings destination content = .ok draft ∧
      match retry.outcome read settings t with
      | (.error (.nothingPending _), u) => u.pending.find? (user, project) = none
      | (.error (.writeFailed _), u) =>
        u.pending.find? (user, project) = some { draft with since := retry.now }
      | (.error _, u) => u.pending.find? (user, project) =
        some { draft with since := lastFailure user project save.now between }
      | (.ok saved, u) => Settled read settings user project draft t saved u := by
  obtain ⟨draft, hdraft, hsaved⟩ := Occasion.kept_of_writeFailed hsave hfailed
  have hn : (save.outcome read settings s).2.pending.keys.Nodup :=
    nodup_keys_of_ends (hearlier.nodup_keys List.nodup_nil) (save.ends_outcome read settings s)
  have hkept := hbetween.kept hn hsaved hspares hunsaved
  have hhealthy : t.Healthy := by
    have hs := hearlier.healthy (healthy_start settings ids)
    exact hbetween.healthy (save.follows hs.follows hfeasible).toHealthy
  have hends := Occasion.ends_retry hretry read settings t
  have hsettled : ∀ saved, (retry.outcome read settings t).1 = .ok saved → saved.draft = draft →
      (retry.outcome read settings t).2.pending.find? (user, project) = none →
        Settled read settings user project draft t saved (retry.outcome read settings t).2 :=
    fun _ => Occasion.settled hhealthy hretry hretryFeasible
  refine ⟨hkept.ne_nothingPending hretry, draft, hdraft, ?_⟩
  generalize retry.outcome read settings t = outcome at hends hsettled ⊢
  obtain ⟨a, u⟩ := outcome
  rcases hkept.find?_cases with hnone | hfound
  · obtain ⟨rfl, rfl⟩ := retryFor_none hends hnone
    exact hnone
  · obtain ⟨-, rfl, hnone⟩ | ⟨e, rfl, hp⟩ | ⟨saved, v, rfl, hp, rfl⟩ := retryFor_kept hends hfound
    · exact hnone
    · obtain ⟨_, rfl, hpending⟩ | ⟨he, hpending⟩ := hp.find?_of_error hfound
      · exact hpending
      · cases e <;> first | exact hpending | (rcases he with he | he <;> cases he)
    · exact hsettled saved rfl hp.draft_eq (OrderedMap.find?_erase_self _ _)

/-- A retry whose version is not written either. -/
def failedRepetition : Occasion := { repetition with now := 1800, faults := failedSave.faults }

/-- What is there behind a save that failed and a look through what is kept. -/
def afterSweep : Service :=
  { (failedSave.outcome ofMarkup {} afterFirst).2 with
    pending := (failedSave.outcome ofMarkup {} afterFirst).2.pending.sweep
      (Terms.ofSettings {} 1500).pendingExpiry 1500 }

def afterFailures : Service := (failedRepetition.outcome ofMarkup {} afterSweep).2

/-- The second retry of what a save kept finds it, and saves it at the fourth number. -/
theorem retry_settles_fourth :
    (repetition.outcome ofMarkup {} afterFailures).1 ≠ .error (.nothingPending "shop") ∧
      ∃ draft saved, saved.revision.number = 4 ∧
        Settled ofMarkup {} "ann" "shop" draft afterFailures saved
          (repetition.outcome ofMarkup {} afterFailures).2 := by
  have hearlier : Course ofMarkup {} unnamed _ afterFirst := .call .start firstSave (by decide)
  have hsave : failedSave.call = .save "shop" "ann" "pages/home.jsx" "second" := rfl
  have hfailed : (failedSave.outcome ofMarkup {} afterFirst).1 = .error (.writeFailed "pages/home.jsx") := by
    decide +kernel
  have hagain : (failedRepetition.outcome ofMarkup {} afterSweep).1 =
      .error (.writeFailed "pages/home.jsx") := by
    decide +kernel
  have hbetween : Course ofMarkup {} (failedSave.outcome ofMarkup {} afterFirst).2
      [.sweep 1500, .call failedRepetition (.error (.writeFailed "pages/home.jsx"))] afterFailures :=
    hagain ▸ .call (.sweep .start 1500) failedRepetition (by decide)
  have hretry : repetition.call = .retry "shop" "ann" := rfl
  obtain ⟨hfound, draft, -, hsettled⟩ := retry_settles hearlier hsave (by decide) hfailed hbetween
    (by simp [Event.FailsSave, failedRepetition, repetition]) (by simp [Event.Succeeds]) hretry
    (by decide)
  have hclock : ([1000, 1500, 1800, 2000] : List Int).Pairwise (· ≤ ·) := by decide
  have hdates : ∀ time ∈ ([1000, 1500, 1800, 2000] : List Int), isDatable time = true := by decide
  have hnumber :
      (repetition.outcome ofMarkup {} afterFailures).1.toOption.map (·.revision.number) = some 4 := by
    decide +kernel
  refine ⟨hfound ⟨hclock, hdates, fun h => h.elim, fun _ => by decide, fun _ => by decide, trivial⟩, ?_⟩
  generalize repetition.outcome ofMarkup {} afterFailures = outcome at hsettled hnumber
  obtain ⟨e | saved, u⟩ := outcome
  · cases hnumber
  · exact ⟨draft, saved, Option.some.inj hnumber, hsettled⟩

end VersionedSite.Service
