import VersionedSite.Proofs.PendingSaves
import VersionedSite.Proofs.Service.Outcome

/-!
# Histories

Saves and retries that come one after another, by whomever and for whichever projects, with whatever
befalls their steps. What they save is all that is ever seen: of a path at a number, what was saved last
with a number up to that one (`contentAt_history`). A number that has been given out shows the same ever
after.

* `Occasion.follows`: what one call adds to a history.
* `follows_of_runs`: what a run adds to it.
-/

namespace VersionedSite.Service

open Program Store
open Markup.Outline (ofMarkup)

/-- A call that may write a file. -/
inductive WriteCall where
  | save (project user destination content : String)
  | retry (project user : String)

namespace WriteCall

/-- The project that a call is for. -/
def project : WriteCall → String
  | save project .. => project
  | retry project _ => project

/-- What a call does. -/
def program (read : Markup.OutlineReader) (settings : Settings) :
    WriteCall → Program (Except SiteError Saved)
  | save project user destination content => saveFor read settings project user destination content
  | retry project user => retryFor settings project user

end WriteCall

/-- A call with the time that it is made at and what befalls its steps. -/
structure Occasion where
  call : WriteCall
  /-- The time in milliseconds. -/
  now : Int
  faults : Faults := {}

namespace Occasion

/-- What a call that nothing comes in between of results in, and the state that it leaves. -/
def outcome (read : Markup.OutlineReader) (settings : Settings) (o : Occasion) (s : Service) :
    Except SiteError Saved × Service :=
  let (a, _, t) :=
    (o.call.program read settings).run (.ofSettings settings o.now) (o.faults.atTime o.now) s
  (a, t)

/-- Whether numbers that the call reads too late have been next to be given out, or are so now. -/
def IsPlausible (o : Occasion) (s : Service) : Prop :=
  ∀ n ∈ o.faults.outdated, 1 ≤ n ∧ n ≤ s.store.greatest o.call.project + 1

instance (o : Occasion) (s : Service) : Decidable (o.IsPlausible s) :=
  inferInstanceAs (Decidable (∀ n ∈ o.faults.outdated, _))

end Occasion

/-- The results of calls, oldest first, with the projects that they were for. -/
abbrev History := List (String × Except SiteError Saved)

/-- Runs of calls, with what they result in. -/
inductive Runs (read : Markup.OutlineReader) (settings : Settings) (s : Service) :
    History → Service → Prop where
  | start : Runs read settings s [] s
  | call {history : History} {t : Service} (h : Runs read settings s history t) (o : Occasion)
      (hp : o.IsPlausible t) :
      Runs read settings s (history ++ [(o.call.project, (o.outcome read settings t).1)])
        (o.outcome read settings t).2

/-- A saved file as it is to be seen. -/
def Saved.visible (saved : Saved) : VisibleFile :=
  { path := saved.draft.path, role := saved.draft.role, content := saved.draft.content
    number := saved.revision.number }

/-- What a result saves in a project. -/
def savedBy (project : String) (e : String × Except SiteError Saved) : Option VisibleFile :=
  match e with
  | (owner, .ok saved) => if owner = project then some saved.visible else none
  | (_, .error _) => none

/-- What was saved in a project, oldest first. -/
def savedIn (history : History) (project : String) : List VisibleFile :=
  history.filterMap (savedBy project)

/-- Whether the roles of drafts that are kept are told by their paths. -/
def PendingClassified (pending : PendingSaves) : Prop :=
  ∀ e ∈ pending.entries, e.2.role = (Role.ofPath e.2.path).name

/-- What every call keeps of a state. -/
structure Healthy (s : Service) : Prop where
  sound : s.store.Sound
  gapless : s.store.Gapless
  classified : s.store.Classified
  pending : PendingClassified s.pending

/-- A state after some calls, and what they have saved since another state. -/
structure Follows (s : Service) (history : History) (t : Service) : Prop extends Healthy t where
  greatest_le : ∀ project, s.store.greatest project ≤ t.store.greatest project
  seen_eq : ∀ project, t.store.seen project = s.store.seen project ++ savedIn history project
  /-- What is saved has numbers that had not been given out. -/
  greatest_lt : ∀ project, ∀ f ∈ savedIn history project, s.store.greatest project < f.number
  ascending : ∀ project, (savedIn history project).Pairwise fun f g => f.number < g.number

variable {terms : Terms} {stale : Int → Prop} {read : Markup.OutlineReader} {settings : Settings}
  {s t u : Service} {history : History} {project user : String} {draft : FileDraft}

/-! ## Drafts -/

theorem prepare_eq_ok {destination content : String} :
    prepare read settings destination content = .ok draft ↔
      ∃ d a, Destination.resolve destination = .ok d ∧
        Destination.accept read d content settings.maxContentBytes = .ok a ∧
        draftOf a = draft := by
  unfold prepare
  cases hd : Destination.resolve destination with
  | error e => simp [Bind.bind, Except.bind]
  | ok d =>
    cases ha : Destination.accept read d content settings.maxContentBytes with
    | error e => simp [Bind.bind, Except.bind, ha]
    | ok a => simp [Bind.bind, Except.bind, Pure.pure, Except.pure, ha]

theorem role_of_prepare {destination content : String}
    (h : prepare read settings destination content = .ok draft) :
    draft.role = (Role.ofPath draft.path).name := by
  obtain ⟨d, a, -, ha, rfl⟩ := prepare_eq_ok.1 h
  obtain ⟨-, hp, hr⟩ := Destination.accept_eq_ok ha
  rw [draftOf, hr, hp]
  rfl

theorem PendingClassified.put {pending : PendingSaves} (h : PendingClassified pending)
    {save : PendingSave} (hs : save.role = (Role.ofPath save.path).name) :
    PendingClassified (pending.put user project save) := by
  intro e he
  rcases List.mem_cons.1 (pending.entries_put_subset user project save he) with rfl | he
  · exact hs
  · exact h e he

theorem PendingClassified.discard {pending : PendingSaves} (h : PendingClassified pending) :
    PendingClassified (pending.discard user project) :=
  fun e he => h e (pending.entries_discard_subset user project he)

theorem PendingClassified.get {pending : PendingSaves} (h : PendingClassified pending)
    (expiry : Expiry) (now : Int) (user project : String) :
    PendingClassified (pending.get expiry now user project).2 ∧
      ∀ save, (pending.get expiry now user project).1 = some save →
        save.role = (Role.ofPath save.path).name :=
  ⟨fun e he => h e (pending.entries_get_subset expiry now user project he),
    fun _ hs => h _ (PendingSaves.mem_entries_of_get hs)⟩

/-! ## Calls -/

theorem savedIn_concat (history : History) (e : String × Except SiteError Saved) (p : String) :
    savedIn (history ++ [e]) p = savedIn history p ++ (savedBy p e).toList := by
  rw [savedIn, List.filterMap_append, ← savedIn]
  cases h : savedBy p e <;> simp [h]

theorem Healthy.follows (h : s.Healthy) : Follows s [] s :=
  { h with
    greatest_le := fun _ => Int.le_refl _
    seen_eq := fun _ => (List.append_nil _).symm
    greatest_lt := by simp [savedIn]
    ascending := fun _ => .nil }

/-- A call adds what it saves, if it has a number behind all that had been given out. -/
theorem Follows.concat (h : Follows s history t) (hu : u.Healthy) (e : String × Except SiteError Saved)
    (hle : ∀ p, t.store.greatest p ≤ u.store.greatest p)
    (hseen : ∀ p, u.store.seen p = t.store.seen p ++ (savedBy p e).toList)
    (hlt : ∀ p, ∀ f ∈ (savedBy p e).toList, t.store.greatest p < f.number) :
    Follows s (history ++ [e]) u := by
  refine { hu with
    greatest_le := fun p => Int.le_trans (h.greatest_le p) (hle p)
    seen_eq := fun p => ?_, greatest_lt := fun p f hf => ?_, ascending := fun p => ?_ }
  · rw [hseen, h.seen_eq, savedIn_concat, List.append_assoc]
  · rw [savedIn_concat] at hf
    rcases List.mem_append.1 hf with hf | hf
    · exact h.greatest_lt p f hf
    · have hlt := hlt p f hf
      have hle := h.greatest_le p
      omega
  · rw [savedIn_concat, List.pairwise_append]
    refine ⟨h.ascending p, ?_, fun f hf g hg => ?_⟩
    · cases savedBy p e <;> simp
    · have hmem : f ∈ t.store.seen p := by
        rw [h.seen_eq]
        exact List.mem_append_right _ hf
      have hle := h.sound.le_greatest_of_mem_seen hmem
      have hlt := hlt p g hg
      omega

/-- A call that saves nothing and leaves the files as they are. -/
theorem Follows.refused (h : Follows s history t) (hu : u.store = t.store)
    (hp : PendingClassified u.pending) (e : SiteError) :
    Follows s (history ++ [(project, .error e)]) u := by
  have hhealthy : u.Healthy := by
    refine ⟨?_, ?_, ?_, hp⟩ <;> rw [hu]
    · exact h.sound
    · exact h.gapless
    · exact h.classified
  refine h.concat hhealthy _ (fun p => ?_) (fun p => ?_) (fun p f hf => ?_)
  · exact Int.le_of_eq (by rw [hu])
  · rw [hu]
    exact (List.append_nil _).symm
  · cases hf

theorem Healthy.allocates (h : s.Healthy) {r : Revision} {numbered : Store}
    (hr : Allocates terms.now stale project user s.store r numbered)
    (hn : r.number = s.store.greatest project + 1) : Healthy { s with store := numbered } where
  sound := hr.sound h.sound
  gapless := hr.gapless hn h.gapless
  classified := hr.classified h.classified
  pending := h.pending

theorem Healthy.records (h : s.Healthy) {path role : String} {f : FileRecord} {recorded : Store}
    (hf : Records terms.now project path role s.store f recorded)
    (hrole : role = (Role.ofPath path).name) : Healthy { s with store := recorded } where
  sound := hf.sound h.sound
  gapless := hf.gapless h.gapless
  classified := hf.classified h.sound.toKeyed h.classified hrole
  pending := h.pending

/-- A draft is saved behind all that there is, or it shows nothing. -/
theorem Follows.persisted (h : Follows s history t)
    (hrole : draft.role = (Role.ofPath draft.path).name)
    (hstale : ∀ n, stale n → 1 ≤ n ∧ n ≤ t.store.greatest project + 1) {a : Except SiteError Saved}
    (hp : Persisted terms stale project user draft t a u) :
    Follows s (history ++ [(project, a)]) u := by
  cases hp with
  | unnumbered e he => exact h.refused rfl h.pending e
  | @failed r numbered recorded hr hf =>
    have hn := hr.number_eq h.gapless hstale
    have hnumbered := h.toHealthy.allocates hr hn
    have hpending : PendingClassified
        (t.pending.put user project { draft with since := terms.now }) := h.pending.put hrole
    have hle : ∀ p, t.store.greatest p ≤ numbered.greatest p := by
      intro p
      rw [hr.greatest_eq hn]
      split <;> omega
    rcases hf with rfl | ⟨f, hf⟩
    · refine h.concat ?_ _ hle (fun p => ?_) (fun p f hf => by cases hf)
      · exact { hnumbered with pending := hpending }
      · exact (hr.seen_eq h.sound).trans (List.append_nil _).symm
    · refine h.concat ?_ _ (fun p => ?_) (fun p => ?_) (fun p f hf => by cases hf)
      · exact { hnumbered.records hf hrole with pending := hpending }
      · show t.store.greatest p ≤ recorded.greatest p
        rw [hf.greatest_eq]
        exact hle p
      · -- The file shows the role that it had, if it was there.
        show recorded.seen p = t.store.seen p ++ []
        rw [hf.seen_eq hnumbered.sound, hrole,
          hnumbered.classified.map_recast hnumbered.sound.toKeyed, ite_self, hr.seen_eq h.sound,
          List.append_nil]
  | @saved r f numbered recorded hr hf =>
    have hn := hr.number_eq h.gapless hstale
    have hrecorded := (h.toHealthy.allocates hr hn).records hf hrole
    refine h.concat ?_ _ (fun p => ?_) (fun p => ?_) (fun p g hg => ?_)
    · exact { hrecorded with sound := sound_written h.sound hr hf draft.content }
    · show t.store.greatest p ≤ recorded.greatest p
      rw [hf.greatest_eq, hr.greatest_eq hn]
      split <;> omega
    · show Store.seen (recorded.addVersion terms.now f.id r.id draft.content).2 p = _
      rw [seen_written h.sound hr hf, hrole, h.classified.map_recast h.sound.toKeyed]
      by_cases hpp : project = p <;> simp [savedBy, hpp, Saved.visible, hrole]
    · by_cases hpp : project = p
      · rw [savedBy, if_pos hpp, Option.mem_toList, Option.some_inj] at hg
        subst hg hpp
        show t.store.greatest project < r.number
        omega
      · rw [savedBy, if_neg hpp] at hg
        cases hg

section Calls

variable (h : Follows s history t)

include h

theorem Follows.save (hstale : ∀ n, stale n → 1 ≤ n ∧ n ≤ t.store.greatest project + 1)
    {destination content : String} {a : Except SiteError Saved}
    (he : (saveFor read settings project user destination content).Ends terms stale t a u) :
    Follows s (history ++ [(project, a)]) u := by
  obtain ⟨-, rfl, rfl⟩ | ⟨-, e, -, rfl, rfl⟩ | ⟨-, draft, hd, hp⟩ := saveFor_ends he
  · refine h.refused ?_ ?_ _
    · rfl
    · exact h.pending
  · refine h.refused ?_ ?_ _
    · rfl
    · exact h.pending
  · -- Counting the call leaves everything that a history is about.
    have hcounted : Follows s history
        { t with limiter := (t.limiter.check terms.quota terms.now user).2 } := { h with }
    exact hcounted.persisted (role_of_prepare hd) hstale hp

theorem Follows.retry (hstale : ∀ n, stale n → 1 ≤ n ∧ n ≤ t.store.greatest project + 1)
    {a : Except SiteError Saved}
    (he : (retryFor settings project user).Ends terms stale t a u) :
    Follows s (history ++ [(project, a)]) u := by
  obtain ⟨hpending, hrole⟩ :=
    h.pending.get terms.pendingExpiry terms.now user project
  have hfound : Follows s history
      { t with pending := (t.pending.get terms.pendingExpiry terms.now user project).2 } :=
    { h with pending := hpending }
  obtain ⟨-, rfl, rfl⟩ | ⟨save, hs, ⟨e, rfl, hp⟩ | ⟨saved, v, rfl, hp, rfl⟩⟩ := retryFor_ends he
  · refine h.refused ?_ hpending _
    rfl
  · exact hfound.persisted (hrole save hs) hstale hp
  · have hv := hfound.persisted (hrole save hs) hstale hp
    exact { hv with pending := hv.pending.discard }

/-- What one call adds to a history. -/
theorem Occasion.follows (o : Occasion) (hp : o.IsPlausible t) :
    Follows s (history ++ [(o.call.project, (o.outcome read settings t).1)]) (o.outcome read settings t).2 := by
  have hends : (o.call.program read settings).Ends (.ofSettings settings o.now) _ t
      (o.outcome read settings t).1 (o.outcome read settings t).2 :=
    ends_of_run (o.faults.atTime o.now) hp
  obtain ⟨call, now, faults⟩ := o
  cases call with
  | save project user destination content => exact h.save (fun _ hn => hn) hends
  | retry project user => exact h.retry (fun _ hn => hn) hends

end Calls

/-! ## Runs -/

/-- What a run adds to a history. -/
theorem Healthy.follows_of_runs (h : s.Healthy) (hr : Runs read settings s history t) :
    Follows s history t := by
  induction hr with
  | start => exact h.follows
  | call _ o hp ih => exact o.follows ih hp

theorem healthy_start (settings : Settings) (ids : IdSupply) : (start settings ids).Healthy where
  sound := sound_empty
  gapless := gapless_empty
  classified := by simp [Classified, start]
  pending := by simp [PendingClassified, start, OrderedMap.empty]

/-- Nothing new is seen at a number that had been given out before. -/
theorem Follows.contentAt_eq (h : Follows s history t) {number : Int}
    (hn : number ≤ s.store.greatest project) (path : String) :
    t.store.contentAt project path number = s.store.contentAt project path number := by
  have hnil : upTo path number (savedIn history project) = [] := by
    refine List.filter_eq_nil_iff.2 fun f hf => ?_
    have hlt := h.greatest_lt project f hf
    rw [decide_eq_true_eq]
    omega
  rw [Store.contentAt_eq, Store.contentAt_eq, h.seen_eq, upTo_append, hnil, List.append_nil]

/-- After any calls from the start on, a path holds at a number what was saved last with a number up to
it; whatever is called afterwards, at a number that had been given out it holds the same. -/
theorem contentAt_history {ids : IdSupply} (hr : Runs read settings (start settings ids) history s)
    (project path : String) (number : Int) :
    s.store.contentAt project path number = (upTo path number (savedIn history project)).getLast? ∧
      ∀ later t latest, Runs read settings s later t → s.store.latest? project = some latest →
        number ≤ latest.number →
          t.store.contentAt project path number = s.store.contentAt project path number := by
  have h := (healthy_start settings ids).follows_of_runs hr
  refine ⟨?_, fun later t latest hl hlatest hn => ?_⟩
  · have hseen : s.store.seen project = savedIn history project := by
      rw [h.seen_eq]
      rfl
    rw [Store.contentAt_eq, hseen]
    refine newestOf_eq_getLast? (((h.ascending project).filter _).imp ?_)
    exact fun hlt => Int.le_of_lt hlt
  · rw [(latest?_eq_some hlatest).2.2] at hn
    exact (h.toHealthy.follows_of_runs hl).contentAt_eq hn path

/-! ## A write that fails and is repeated -/

/-- A service that never draws an identifier. -/
def unnamed : Service := start {} { sequence := fun _ => "" }

def firstSave : Occasion := { call := .save "shop" "ann" "pages/home.jsx" "first", now := 0 }

/-- A save whose version is not written. -/
def failedSave : Occasion where
  call := .save "shop" "ann" "pages/home.jsx" "second"
  now := 1000
  faults := { breaks := fun st => match st with | .insertVersion .. => true | _ => false }

def repetition : Occasion := { call := .retry "shop" "ann", now := 2000 }

def afterFirst : Service := (firstSave.outcome ofMarkup {} unnamed).2

def afterRepetition : Service :=
  (repetition.outcome ofMarkup {} (failedSave.outcome ofMarkup {} afterFirst).2).2

/-- The number of the failed write stays without a version, and the repetition has the next one. -/
theorem contentAt_history_repetition :
    afterRepetition.store.contentAt "shop" "pages/home.jsx" 3 =
        some { path := "pages/home.jsx", role := "page", content := "second", number := 3 } ∧
      afterRepetition.store.contentAt "shop" "pages/home.jsx" 1 =
        afterFirst.store.contentAt "shop" "pages/home.jsx" 1 := by
  have hfirst : Runs ofMarkup {} unnamed _ afterFirst := .call .start firstSave (by decide)
  have hlater : Runs ofMarkup {} afterFirst _ afterRepetition :=
    .call (.call .start failedSave (by decide)) repetition (by decide)
  have hall : Runs ofMarkup {} unnamed _ afterRepetition :=
    .call (.call hfirst failedSave (by decide)) repetition (by decide)
  refine ⟨?_, ?_⟩
  · rw [(contentAt_history hall "shop" "pages/home.jsx" 3).1]
    decide +kernel
  · have hlatest : afterFirst.store.latest? "shop" =
        some { id := 1, project := "shop", number := 1, user := "ann", createdAt := 0 } := by
      decide +kernel
    exact (contentAt_history hfirst "shop" "pages/home.jsx" 1).2 _ _ _ hlater hlatest (by decide)

end VersionedSite.Service
