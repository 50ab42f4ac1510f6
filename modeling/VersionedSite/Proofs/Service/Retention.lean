import VersionedSite.Proofs.PendingSaves
import VersionedSite.Proofs.Service.Immutability
import VersionedSite.Proofs.Service.Turns

/-!
# A retry beside a save

A save whose write fails keeps its draft. A retry looks at what is kept, writes it, and then forgets
whatever is kept by then; so a draft that a save keeps between these steps is lost
(`exists_play_of_lost_draft`). Once both are through, the draft of the save is still kept, or is what the
retry has written, exactly if the retry, since the save failed, has heeded what is kept
(`kept_or_written_iff`): it neither overwrote nor forgot another draft than its own, and did not find too
old what it looked for.

* `saveFor_keeps`: a save fails in its write only behind the step that keeps its draft.
* `retryFor_repeats`: a retry keeps only what it has found, and forgets only when it has written that.
* `Retention.turn_or`: what a turn leaves of the draft that was kept.
-/

namespace VersionedSite.Service

open Program
open Markup.Outline (ofMarkup)

variable {read : Markup.OutlineReader} {settings : Settings}
  {project user destination content : String} {draft : FileDraft}

/-! ## Steps -/

/-- Whether a step has nothing to do with what is kept. -/
def Step.IgnoresPending : Step → Prop
  | findPending .. | keepPending .. | forgetPending .. => False
  | _ => True

theorem Step.OfAllocation.ignoresPending {st : Step} (h : st.OfAllocation project user) :
    st.IgnoresPending := by
  cases h <;> trivial

theorem Step.OfWrite.ignoresPending {st : Step} (h : st.OfWrite project draft) :
    st.IgnoresPending := by
  cases h <;> trivial

theorem pending_perform {st : Step} (h : st.IgnoresPending) (terms : Terms) (d : Option Disturbance)
    (s : Service) : (s.perform terms d st).2.pending = s.pending := by
  have hstep := pendingStep_perform terms d st s
  generalize (s.perform terms d st).2.pending = pending at hstep
  cases hstep with
  | nothing => rfl
  | find | keep | forget => exact h.elim

theorem createRevision_ignoresPending :
    (createRevision settings project user).Every Step.IgnoresPending fun _ => True :=
  createRevision_every.mono (fun _ h => h.ignoresPending) fun _ h => h

theorem writeDraft_ignoresPending (r : Revision) :
    (writeDraft project draft r).Every Step.IgnoresPending fun _ => True :=
  (writeDraft_every r).mono (fun _ h => h.ignoresPending) fun _ h => h

/-! ## Saves -/

namespace Program

/-- Whether a program keeps drafts of some kind only, with its last step before it fails in a write, and
otherwise has nothing to do with what is kept and comes to something of some kind. -/
def Keeps (project user : String) (P : FileDraft → Prop) (Q : Except SiteError Saved → Prop) :
    Program (Except SiteError Saved) → Prop
  | done a => Q a
  | step st next =>
    (st.IgnoresPending ∧ ∀ answer, (next answer).Keeps project user P Q) ∨
      ∃ draft, P draft ∧ st = .keepPending user project draft ∧
        ∃ e, e.kind = .persistenceFailed ∧ ∀ answer, next answer = .done (.error e)

theorem keeps_bind {α : Type} {P : FileDraft → Prop} {Q : Except SiteError Saved → Prop}
    {p : Program α} {f : α → Program (Except SiteError Saved)}
    (hp : p.Every Step.IgnoresPending fun _ => True) (hf : ∀ a, (f a).Keeps project user P Q) :
    (p >>= f).Keeps project user P Q := by
  change (p.bind f).Keeps project user P Q
  induction p with
  | done a => exact hf a
  | step st next ih => exact .inl ⟨hp.1, fun answer => ih answer (hp.2 answer)⟩

theorem Keeps.mono {P : FileDraft → Prop} {Q Q' : Except SiteError Saved → Prop}
    {p : Program (Except SiteError Saved)} (h : p.Keeps project user P Q) (hQ : ∀ a, Q a → Q' a) :
    p.Keeps project user P Q' := by
  induction p with
  | done a => exact hQ a h
  | step st next ih => exact h.imp_left fun h => ⟨h.1, fun answer => ih answer (h.2 answer)⟩

end Program

/-- Whether a call did not fail in a write. -/
def Written (a : Except SiteError Saved) : Prop :=
  ∀ e, a = .error e → e.kind ≠ .persistenceFailed

/-- To write a draft is to keep it, or to come to the draft or to another failure than that of a write. -/
theorem persist_keeps {P : FileDraft → Prop} (hd : P draft) :
    (persist settings project user draft).Keeps project user P
      fun a => Written a ∧ ∀ saved, a = .ok saved → saved.draft = draft := by
  refine keeps_bind createRevision_ignoresPending fun a => ?_
  rcases a with (tried | fault) | r
  · exact ⟨by rintro e ⟨⟩ ⟨⟩, by rintro saved ⟨⟩⟩
  · exact ⟨by rintro e ⟨⟩ ⟨⟩, by rintro saved ⟨⟩⟩
  · refine keeps_bind (writeDraft_ignoresPending r) fun v => ?_
    cases v with
    | ok v => exact ⟨by rintro e ⟨⟩, by rintro saved ⟨⟩; rfl⟩
    | error fault => exact .inr ⟨draft, hd, rfl, _, rfl, fun _ => rfl⟩

theorem saveFor_keeps : (saveFor read settings project user destination content).Keeps project user
    (fun draft => prepare read settings destination content = .ok draft) Written := by
  refine keeps_bind (every_take trivial) fun b => ?_
  dsimp only
  split
  · rintro e ⟨⟩ ⟨⟩
  · split
    · rename_i e he
      rintro e ⟨⟩
      exact (kind_of_prepare_error he).2
    · rename_i draft hd
      exact (persist_keeps hd).mono fun _ h => h.1

/-! ## Retries -/

namespace Program

/-- Whether a program keeps no other draft for a user than a given one, with its last step before it
fails, and forgets what is kept only with its last step, when it has written that draft. -/
def Repeats (project user : String) (draft : FileDraft) : Program (Except SiteError Saved) → Prop
  | done _ => True
  | step st next =>
    (st.IgnoresPending ∧ ∀ answer, (next answer).Repeats project user draft) ∨
      (st = .keepPending user project draft ∧ ∃ e, ∀ answer, next answer = .done (.error e)) ∨
      (st = .forgetPending user project ∧
        ∃ saved, saved.draft = draft ∧ ∀ answer, next answer = .done (.ok saved))

theorem repeats_bind {Q : Except SiteError Saved → Prop} {p : Program (Except SiteError Saved)}
    {f : Except SiteError Saved → Program (Except SiteError Saved)}
    (hp : p.Keeps project user (· = draft) Q) (herror : ∀ e, f (.error e) = .done (.error e))
    (hok : ∀ saved, Q (.ok saved) → (f (.ok saved)).Repeats project user draft) :
    (p >>= f).Repeats project user draft := by
  change (p.bind f).Repeats project user draft
  induction p with
  | done a =>
    cases a with
    | error e =>
      rw [Program.bind, herror]
      trivial
    | ok saved => exact hok saved hp
  | step st next ih =>
    obtain ⟨hst, hnext⟩ | ⟨_, rfl, rfl, e, -, hnext⟩ := hp
    · exact .inl ⟨hst, fun answer => ih answer (hnext answer)⟩
    · refine .inr (.inl ⟨rfl, e, fun answer => ?_⟩)
      show (next answer).bind f = _
      rw [hnext, Program.bind, herror]

end Program

/-- A retry begins by looking for what is kept, and goes on with what it has found. -/
theorem retryFor_repeats (settings : Settings) (project user : String) :
    ∃ next, retryFor settings project user = .step (.findPending user project) next ∧
      next none = .done (.error (.nothingPending project)) ∧
      ∀ save : PendingSave, (next (some save)).Repeats project user save.toFileDraft := by
  refine ⟨_, rfl, rfl, fun save => ?_⟩
  refine repeats_bind (persist_keeps rfl) (fun _ => rfl) fun saved h => ?_
  exact .inr (.inr ⟨rfl, saved, h.2 saved rfl, fun _ => rfl⟩)

/-- Whether a retry has not begun, or goes on with a draft that it has found. -/
def Retries (settings : Settings) (project user : String) (p : Program (Except SiteError Saved)) :
    Prop :=
  p = retryFor settings project user ∨ ∃ draft, p.Repeats project user draft

/-- A retry goes on as one, whatever it is answered. -/
theorem Retries.next {st : Step} {next : st.Answer → Program (Except SiteError Saved)}
    (h : Retries settings project user (.step st next)) (answer : st.Answer) :
    Retries settings project user (next answer) := by
  rcases h with hbegins | ⟨draft, ⟨-, hnext⟩ | ⟨-, e, hnext⟩ | ⟨-, saved, -, hnext⟩⟩
  · obtain ⟨next', hfinds, hnothing, hgoes⟩ := retryFor_repeats settings project user
    cases hbegins.trans hfinds
    cases answer with
    | none => exact .inr ⟨⟨"", "", "", []⟩, hnothing ▸ trivial⟩
    | some save => exact .inr ⟨save.toFileDraft, hgoes save⟩
  · exact .inr ⟨draft, hnext answer⟩
  · exact .inr ⟨draft, hnext answer ▸ trivial⟩
  · exact .inr ⟨draft, hnext answer ▸ trivial⟩

/-! ## Both beside each other -/

/-- One of two who write for the same user. -/
inductive Party where
  | save
  | retry
  deriving DecidableEq, Repr

/-- A save and a retry of one user and project that begin beside each other. -/
def saveAndRetry (read : Markup.OutlineReader) (settings : Settings)
    (project user destination content : String) (service : Service) : Crowd Party (Except SiteError Saved) :=
  let saves : Party → Saving
    | .save => .call (.save project user destination content)
    | .retry => .call (.retry project user)
  savings read settings saves service

/-- Whether the next step of a program heeds what is kept: if it looks for it, it does not find it too
old, and if it keeps a draft or forgets what is kept, that is its own draft. -/
def Program.Heeds (kept : PendingSave) (terms : Terms) : Program (Except SiteError Saved) → Prop
  | .step (.findPending ..) _ => terms.pendingExpiry.isUp kept.since terms.now = false
  | .step (.keepPending _ _ draft) _ => draft = kept.toFileDraft
  | .step (.forgetPending ..) next =>
    ∀ saved, next () = .done (.ok saved) → saved.draft = kept.toFileDraft
  | _ => True

theorem Step.IgnoresPending.heeds {st : Step} (h : st.IgnoresPending) (kept : PendingSave)
    (terms : Terms) (next : st.Answer → Program (Except SiteError Saved)) :
    (Program.step st next).Heeds kept terms := by
  cases st <;> trivial

/-- Whether a turn of the retry, if it comes when the save has failed in its write, heeds what is kept. -/
def HeedsSave (project user : String) (c : Crowd Party (Except SiteError Saved)) (t : Turn Party) :
    Prop :=
  t.who = .retry → (∃ e, c.programs .save = .done (.error e) ∧ e.kind = .persistenceFailed) →
    ∀ kept, c.service.pending.find? (user, project) = some kept →
      (c.programs .retry).Heeds kept t.terms

/-- While the save has not failed there is nothing that the retry has to heed. -/
theorem along_of_not_failed {c : Crowd Party (Except SiteError Saved)}
    (hsave : ∀ e, c.programs .save ≠ .done (.error e)) {turns : List (Turn Party)}
    (hturns : ∀ t ∈ turns, t.who = .retry) : c.Along (HeedsSave project user) turns := by
  induction turns generalizing c with
  | nil => trivial
  | cons t turns ih =>
    have hwho : .save ≠ t.who := by
      rw [hturns t List.mem_cons_self]
      decide
    refine ⟨fun _ ⟨e, he, _⟩ => absurd he (hsave e), ih ?_ fun t' ht' => hturns t' ?_⟩
    · rwa [Crowd.programs_turn_of_ne hwho]
    · exact List.mem_cons_of_mem t ht'

theorem along_of_save {c : Crowd Party (Except SiteError Saved)} {turns : List (Turn Party)}
    (hturns : ∀ t ∈ turns, t.who = .save) : c.Along (HeedsSave project user) turns := by
  refine Crowd.along_of_forall fun t ht c hwho => ?_
  cases (hturns t ht).symm.trans hwho

theorem Retries.turn {c : Crowd Party (Except SiteError Saved)} {t : Turn Party}
    (h : Retries settings project user (c.programs .retry)) :
    Retries settings project user ((c.turn t).programs .retry) := by
  obtain ⟨-, hsame⟩ | ⟨st, next, hp, hprograms, -⟩ := c.turn_cases t
  · rwa [hsame]
  · by_cases hwho : .retry = t.who
    · rw [hprograms, ← hwho, Function.update_self]
      rw [← hwho] at hp
      exact (hp ▸ h).next _
    · rwa [Crowd.programs_turn_of_ne hwho]

/-- What has become of the draft of a save beside a retry that heeds what is kept. -/
inductive Retention (read : Markup.OutlineReader) (settings : Settings)
    (project user destination content : String) (c : Crowd Party (Except SiteError Saved)) : Prop where
  /-- The save has not failed in its write. -/
  | unfailed
      (hsave : (c.programs .save).Keeps project user
        (fun draft => prepare read settings destination content = .ok draft) Written)
      (hretry : Retries settings project user (c.programs .retry))
  /-- The draft is kept. -/
  | kept {draft : FileDraft} {e : SiteError} {since : Int}
      (hd : prepare read settings destination content = .ok draft)
      (hsave : c.programs .save = .done (.error e)) (he : e.kind = .persistenceFailed)
      (hkept : c.service.pending.find? (user, project) = some { draft with since })
      (hretry : Retries settings project user (c.programs .retry))
  /-- The retry has written the draft. -/
  | written {draft : FileDraft} {e : SiteError} {saved : Saved}
      (hd : prepare read settings destination content = .ok draft)
      (hsave : c.programs .save = .done (.error e))
      (hretry : c.programs .retry = .done (.ok saved)) (hs : saved.draft = draft)

/-- Both are through, and the draft of the save is neither kept nor written. -/
inductive Lost (read : Markup.OutlineReader) (settings : Settings) (project user destination content : String)
    (c : Crowd Party (Except SiteError Saved)) : Prop where
  | intro {draft : FileDraft} {a b : Except SiteError Saved}
      (hd : prepare read settings destination content = .ok draft)
      (hsave : c.programs .save = .done a) (hretry : c.programs .retry = .done b)
      (hkept : ∀ kept, c.service.pending.find? (user, project) = some kept →
        kept.toFileDraft ≠ draft)
      (hwritten : ∀ saved, b = .ok saved → saved.draft ≠ draft)

theorem Lost.play {c : Crowd Party (Except SiteError Saved)}
    (h : Lost read settings project user destination content c) (turns : List (Turn Party)) :
    Lost read settings project user destination content (c.play turns) := by
  refine Crowd.play_induction (fun c t _ h => ?_) h (Crowd.along_of_forall fun _ _ _ => trivial)
  have hsame : c.turn t = c := by
    obtain ⟨-, hsave, hretry, -, -⟩ := h
    cases hwho : t.who with
    | save => exact Crowd.turn_of_done (hwho ▸ hsave)
    | retry => exact Crowd.turn_of_done (hwho ▸ hretry)
  rwa [hsame]

namespace Retention

variable {c : Crowd Party (Except SiteError Saved)} {t : Turn Party}

theorem turn_save (hsave : (c.programs .save).Keeps project user
      (fun draft => prepare read settings destination content = .ok draft) Written)
    (hretry : Retries settings project user (c.programs .retry)) (hwho : t.who = .save) :
    Retention read settings project user destination content (c.turn t) := by
  obtain ⟨-, hsame⟩ | ⟨st, next, hp, hprograms, hservice⟩ := c.turn_cases t
  · rw [hsame]
    exact .unfailed hsave hretry
  rw [hwho] at hp hprograms
  have hsave' : (c.turn t).programs .save = next (c.service.perform t.terms t.disturbance st).1 := by
    rw [hprograms, Function.update_self]
  rw [hp] at hsave
  obtain ⟨-, hnext⟩ | ⟨draft, hd, rfl, e, he, hnext⟩ := hsave
  · exact .unfailed (hsave' ▸ hnext _) hretry.turn
  · -- The write has failed and the draft is kept.
    have hkept : (c.turn t).service.pending.find? (user, project) =
        some { draft with since := t.terms.now } := by
      rw [hservice]
      exact OrderedMap.find?_insert_self _ _ _
    exact .kept hd (hsave'.trans (hnext _)) he hkept hretry.turn

/-- A turn of the retry when the draft of the save is kept. -/
theorem turn_retry_or {e : SiteError} {since : Int}
    (hd : prepare read settings destination content = .ok draft)
    (hsave : c.programs .save = .done (.error e)) (he : e.kind = .persistenceFailed)
    (hkept : c.service.pending.find? (user, project) = some { draft with since })
    (hretry : Retries settings project user (c.programs .retry)) (hwho : t.who = .retry) :
    ((c.programs .retry).Heeds { draft with since } t.terms ∧
        Retention read settings project user destination content (c.turn t)) ∨
      (¬(c.programs .retry).Heeds { draft with since } t.terms ∧
        Lost read settings project user destination content (c.turn t)) := by
  have hgoes : Retries settings project user ((c.turn t).programs .retry) := hretry.turn
  obtain ⟨⟨a, ha⟩, hsame⟩ | ⟨st, next, hp, hprograms, hservice⟩ := c.turn_cases t
  · rw [hwho] at ha
    rw [ha, hsame]
    exact .inl ⟨trivial, .kept hd hsave he hkept hretry⟩
  rw [hwho] at hp hprograms
  have hsave' : (c.turn t).programs .save = .done (.error e) := by
    rw [hprograms, Function.update_of_ne (by decide), hsave]
  have hretry' : (c.turn t).programs .retry =
      next (c.service.perform t.terms t.disturbance st).1 := by
    rw [hprograms, Function.update_self]
  rw [hp] at hretry ⊢
  rcases hretry with hbegins | ⟨other, ⟨hst, -⟩ | ⟨rfl, e', hnext⟩ | ⟨rfl, saved, rfl, hnext⟩⟩
  · -- The retry looks for what is kept.
    obtain ⟨next', hfinds, hnothing, -⟩ := retryFor_repeats settings project user
    cases hbegins.trans hfinds
    cases hup : t.terms.pendingExpiry.isUp since t.terms.now with
    | false =>
      have hkept' : (c.turn t).service.pending.find? (user, project) = some { draft with since } := by
        rw [hservice, perform, PendingSaves.get_of_find? hkept hup]
        exact hkept
      exact .inl ⟨hup, .kept hd hsave' he hkept' hgoes⟩
    | true =>
      have hget := PendingSaves.get_of_isUp hkept hup
      have hretried : (c.turn t).programs .retry = .done (.error (.nothingPending project)) := by
        rw [hretry', perform, hget]
        exact hnothing
      have hgone : (c.turn t).service.pending.find? (user, project) = none := by
        rw [hservice, perform, hget]
        exact OrderedMap.find?_erase_self _ _
      refine .inr ⟨by simp [Program.Heeds, hup],
        .intro hd hsave' hretried (fun kept hfound => ?_) (by rintro saved ⟨⟩)⟩
      cases hgone.symm.trans hfound
  · have hkept' : (c.turn t).service.pending.find? (user, project) = some { draft with since } := by
      rw [hservice, pending_perform hst]
      exact hkept
    exact .inl ⟨hst.heeds _ _ _, .kept hd hsave' he hkept' hgoes⟩
  · -- The retry keeps its own draft.
    have hown : (c.turn t).service.pending.find? (user, project) =
        some { other with since := t.terms.now } := by
      rw [hservice]
      exact OrderedMap.find?_insert_self _ _ _
    by_cases hsame : other = draft
    · subst hsame
      exact .inl ⟨rfl, .kept hd hsave' he hown hgoes⟩
    · refine .inr ⟨hsame, .intro hd hsave' (hretry'.trans (hnext _)) (fun kept hfound => ?_)
        (by rintro saved ⟨⟩)⟩
      cases hown.symm.trans hfound
      exact hsame
  · -- The retry has written its own draft and forgets what is kept.
    by_cases hsame : saved.draft = draft
    · refine .inl ⟨fun saved' h => ?_, .written hd hsave' (hretry'.trans (hnext _)) hsame⟩
      cases (hnext ()).symm.trans h
      exact hsame
    · refine .inr ⟨fun h => hsame (h saved (hnext ())),
        .intro hd hsave' (hretry'.trans (hnext _)) (fun kept hfound => ?_) ?_⟩
      · rw [hservice] at hfound
        cases (OrderedMap.find?_erase_self _ _).symm.trans hfound
      · rintro _ ⟨⟩
        exact hsame

/-- A turn that heeds what is kept leaves the draft of the save where it is or written, any other turn
loses it. -/
theorem turn_or (h : Retention read settings project user destination content c) (t : Turn Party) :
    (HeedsSave project user c t ∧
        Retention read settings project user destination content (c.turn t)) ∨
      (¬HeedsSave project user c t ∧ Lost read settings project user destination content (c.turn t)) := by
  cases hwho : t.who with
  | save =>
    refine .inl ⟨fun hretry => (by cases hwho.symm.trans hretry), ?_⟩
    cases h with
    | unfailed hsave hretry => exact turn_save hsave hretry hwho
    | kept hd hsave he hkept hretry =>
      rw [Crowd.turn_of_done (hwho ▸ hsave)]
      exact .kept hd hsave he hkept hretry
    | written hd hsave hretry hs =>
      rw [Crowd.turn_of_done (hwho ▸ hsave)]
      exact .written hd hsave hretry hs
  | retry =>
    cases h with
    | unfailed hsave hretry =>
      refine .inl ⟨fun _ ⟨e, hfailed, he⟩ => ?_, .unfailed ?_ hretry.turn⟩
      · rw [hfailed] at hsave
        exact absurd he (hsave e rfl)
      · rwa [Crowd.programs_turn_of_ne (by rw [hwho]; decide)]
    | kept hd hsave he hkept hretry =>
      refine (turn_retry_or hd hsave he hkept hretry hwho).imp
        (fun ⟨hheeds, hafter⟩ => ⟨fun _ _ kept hfound => ?_, hafter⟩)
        fun ⟨hheedless, hafter⟩ => ⟨fun h => hheedless (h hwho ⟨_, hsave, he⟩ _ hkept), hafter⟩
      cases hkept.symm.trans hfound
      exact hheeds
    | written hd hsave hretry hs =>
      rw [Crowd.turn_of_done (hwho ▸ hretry)]
      refine .inl ⟨fun _ _ kept _ => ?_, .written hd hsave hretry hs⟩
      rw [hretry]
      trivial

theorem play_or (h : Retention read settings project user destination content c)
    (turns : List (Turn Party)) :
    (c.Along (HeedsSave project user) turns ∧
        Retention read settings project user destination content (c.play turns)) ∨
      (¬c.Along (HeedsSave project user) turns ∧
        Lost read settings project user destination content (c.play turns)) := by
  induction turns generalizing c with
  | nil => exact .inl ⟨trivial, h⟩
  | cons t turns ih =>
    rcases h.turn_or t with ⟨ht, hafter⟩ | ⟨ht, hlost⟩
    · exact (ih hafter).imp (fun ⟨halong, hend⟩ => ⟨⟨ht, halong⟩, hend⟩)
        fun ⟨halong, hend⟩ => ⟨fun h => halong h.2, hend⟩
    · exact .inr ⟨fun h => ht h.1, hlost.play turns⟩

end Retention

/-- A save and a retry of one user and project beside each other, whatever befalls their steps, when the
save has failed in its write and both are through: the draft of the save is still kept, or is what the retry
has written, exactly if the retry, since the save failed, neither overwrote nor forgot another draft than its
own and did not find too old what is kept. -/
theorem kept_or_written_iff {service : Service} {turns : List (Turn Party)} {e : SiteError}
    {a : Except SiteError Saved}
    (hsave : ((saveAndRetry read settings project user destination content service).play turns).programs
      .save = .done (.error e)) (he : e.kind = .persistenceFailed)
    (hretry : ((saveAndRetry read settings project user destination content service).play turns).programs
      .retry = .done a) :
    ∃ draft, prepare read settings destination content = .ok draft ∧
      (((∃ since, ((saveAndRetry read settings project user destination content service).play
          turns).service.pending.find? (user, project) = some { draft with since }) ∨
        ∃ saved, a = .ok saved ∧ saved.draft = draft) ↔
      (saveAndRetry read settings project user destination content service).Along
        (HeedsSave project user) turns) := by
  have hstart : Retention read settings project user destination content
      (saveAndRetry read settings project user destination content service) :=
    .unfailed saveFor_keeps (.inl rfl)
  obtain ⟨halong, hend⟩ | ⟨halong, hd, hsaved, hretried, hkept, hwritten⟩ := hstart.play_or turns
  · cases hend with
    | unfailed h =>
      rw [hsave] at h
      exact absurd he (h e rfl)
    | kept hd _ _ hkept _ => exact ⟨_, hd, iff_of_true (.inl ⟨_, hkept⟩) halong⟩
    | written hd _ hsaved hs =>
      cases hretry.symm.trans hsaved
      exact ⟨_, hd, iff_of_true (.inr ⟨_, rfl, hs⟩) halong⟩
  · cases hretry.symm.trans hretried
    refine ⟨_, hd, iff_of_false ?_ halong⟩
    rintro (⟨since, hfound⟩ | ⟨saved, rfl, hs⟩)
    · exact hkept _ hfound rfl
    · exact hwritten saved rfl hs

/-! ## A retry beside a save of the same path -/

/-- A save beside a retry of what another save has kept. -/
def secondAndThird : Crowd Party (Except SiteError Saved) :=
  saveAndRetry ofMarkup {} "shop" "ann" "pages/home.jsx" "third" (failedSave.outcome ofMarkup {} afterFirst).2

def party (who : Party) (count : Nat) : List (Turn Party) := spell (.ofSettings {} 2000) who count

/-- The turn by which the save finds that its version is not written. -/
def unwritten : Turn Party :=
  { who := .save, terms := .ofSettings {} 2000, disturbance := some .broken }

/-- What the third save was to write. -/
def third : FileDraft := { path := "pages/home.jsx", role := "page", content := "third", fixes := [] }

/-- The turns of a retry that is through before the save fails. -/
def passing : List (Turn Party) :=
  party .retry 1 ++ (party .save 5 ++ (party .retry 6 ++ (unwritten :: party .save 1)))

/-- A retry that is through before the save fails leaves the draft of the save. -/
theorem kept_or_written_iff_passing :
    (∃ saved, (secondAndThird.play passing).programs .retry = .done (.ok saved)) ∧
      ∃ since, (secondAndThird.play passing).service.pending.find? ("ann", "shop") =
        some { third with since } := by
  have hparty : ∀ who count, ∀ t ∈ party who count, t.who = who := fun who count t ht => by
    rw [List.eq_of_mem_replicate ht]
  have hends : ∀ t ∈ unwritten :: party .save 1, t.who = .save := by
    rintro t ht
    rcases List.mem_cons.1 ht with rfl | ht
    · rfl
    · exact hparty .save 1 t ht
  have hheeds : secondAndThird.Along (HeedsSave "shop" "ann") passing := by
    refine Crowd.along_append.2 ⟨along_of_not_failed ?_ (hparty .retry 1), Crowd.along_append.2
      ⟨along_of_save (hparty .save 5), Crowd.along_append.2
        ⟨along_of_not_failed ?_ (hparty .retry 6), along_of_save hends⟩⟩⟩
    · rintro e ⟨⟩
    · rintro e ⟨⟩
  obtain ⟨saved, hsaved, hsecond⟩ : ∃ saved,
      (secondAndThird.play passing).programs .retry = .done (.ok saved) ∧
        saved.draft.content = "second" := ⟨_, rfl, by decide +kernel⟩
  have hfailed : (secondAndThird.play passing).programs .save =
      .done (.error (.writeFailed "pages/home.jsx")) := rfl
  have hprepare : prepare ofMarkup {} "pages/home.jsx" "third" = .ok third := by decide +kernel
  obtain ⟨draft, hdraft, hiff⟩ := kept_or_written_iff hfailed rfl hsaved
  obtain hkept | ⟨_, ha, rfl⟩ := hiff.2 hheeds
  · cases hprepare.symm.trans hdraft
    exact ⟨⟨saved, hsaved⟩, hkept⟩
  · cases ha
    rw [← Except.ok.inj (hprepare.symm.trans hdraft)] at hsecond
    exact absurd hsecond (by decide)

/-- A retry that is under way when the save fails forgets the draft of the save, and has written another
one. -/
theorem exists_play_of_lost_draft :
    ∃ turns, let c := secondAndThird.play turns
      c.programs .save = .done (.error (.writeFailed "pages/home.jsx")) ∧
        (∃ saved, c.programs .retry = .done (.ok saved) ∧ saved.draft.content = "second") ∧
        c.service.pending.find? ("ann", "shop") = none := by
  refine ⟨party .retry 1 ++ (party .save 5 ++ (unwritten :: party .save 1 ++ party .retry 6)), rfl,
    ⟨_, rfl, ?_⟩, ?_⟩
  · decide +kernel
  · decide +kernel

end VersionedSite.Service
