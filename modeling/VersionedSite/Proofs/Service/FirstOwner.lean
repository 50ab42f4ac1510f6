import VersionedSite.Proofs.Service.Immutability
import VersionedSite.Proofs.Service.Ownership
import VersionedSite.Proofs.Service.Turns

/-!
# The first owner of a project

A save asks who owns the project before it does anything else, and allocates its revision several steps
later. While a project has no revisions it is open to everybody, so two users who both ask then both save,
and the project has revisions of two users (`exists_play_of_two_owners`). When everybody but one user asks
only once there is a revision, the project is that user's alone and nobody else's save is accepted
(`openTo_of_play`).

* `Saving.program_allots`: a save inserts revisions of its own project for its own user.
* `OneOwner.turn`: what a turn keeps of a project with one owner.
-/

namespace VersionedSite.Service

open Program Store
open Markup.Outline (ofMarkup)

/-! ## Programs of saves -/

/-- The project that a save is for. -/
def Saving.project : Saving → String
  | call c => c.project
  | owned project .. | rough project .. => project

/-- The user who saves. -/
def Saving.user : Saving → String
  | call (.save _ user ..) | call (.retry _ user) => user
  | owned _ user .. | rough _ user .. => user

/-- Whether a save asks for the owner of its project. -/
def Saving.AsksForOwner : Saving → Prop
  | call _ => False
  | owned .. | rough .. => True

/-- Whether a step, if it inserts a revision, does so for a project and a user. -/
def Step.Allots (project user : String) (st : Step) : Prop :=
  ∀ owner number u, st = .insertRevision owner number u → owner = project ∧ u = user

section Allots

variable {read : Markup.OutlineReader} {settings : Settings} {project user : String} {draft : FileDraft}

theorem Step.OfAllocation.allots {st : Step} (h : st.OfAllocation project user) :
    st.Allots project user := by
  intro owner number u he
  cases h <;> cases he
  exact ⟨rfl, rfl⟩

theorem Step.OfWrite.allots {owner : String} {st : Step} (h : st.OfWrite owner draft) :
    st.Allots project user := by
  intro owner number u he
  cases h <;> cases he

theorem persist_allots :
    (persist settings project user draft).Every (Step.Allots project user) fun _ => True := by
  refine every_bind (createRevision_every.mono (fun _ h => h.allots) fun _ h => h) fun a _ => ?_
  rcases a with (tried | fault) | r
  · trivial
  · trivial
  · refine every_bind ((writeDraft_every r).mono (fun _ h => h.allots) fun _ h => h) fun v _ => ?_
    cases v with
    | ok v => trivial
    | error fault => exact every_bind (every_take (by simp [Step.Allots])) fun _ _ => trivial

theorem saveFor_allots (destination content : String) :
    (saveFor read settings project user destination content).Every (Step.Allots project user)
      fun _ => True := by
  refine every_bind (every_take (by simp [Step.Allots])) fun b _ => ?_
  dsimp only
  split
  · trivial
  · split
    · trivial
    · exact persist_allots

/-- A save inserts revisions of its own project for its own user. -/
theorem Saving.program_allots (read : Markup.OutlineReader) (settings : Settings) (saving : Saving) :
    (saving.program read settings).Every (Step.Allots saving.project saving.user) fun _ => True := by
  cases saving with
  | call c =>
    cases c with
    | save project user destination content => exact saveFor_allots destination content
    | retry project user =>
      refine every_bind (every_take (by simp [Step.Allots])) fun found _ => ?_
      cases found with
      | none => trivial
      | some save =>
        refine every_bind persist_allots fun a _ => ?_
        cases a with
        | error e => trivial
        | ok saved => exact every_bind (every_take (by simp [Step.Allots])) fun _ _ => trivial
  | owned project user destination content =>
    refine every_bind (every_take (by simp [Step.Allots])) fun latest _ => ?_
    split
    · trivial
    · exact saveFor_allots destination content
  | rough project user destination content =>
    refine every_bind (every_take (by simp [Step.Allots])) fun latest _ => ?_
    split
    · trivial
    · refine every_bind (every_take (by simp [Step.Allots])) fun b _ => ?_
      dsimp only
      split
      · trivial
      · split
        · trivial
        · trivial
        · split
          · trivial
          · trivial
          · refine every_bind (createRevision_every.mono (fun _ h => h.allots) fun _ h => h) fun a _ => ?_
            rcases a with (tried | fault) | r <;> trivial

/-- Whoever asks for the owner does so first, and is refused by an owner who is somebody else. -/
theorem Saving.program_of_asksForOwner {saving : Saving} (h : saving.AsksForOwner)
    (read : Markup.OutlineReader) (settings : Settings) :
    ∃ next, saving.program read settings = .step (.readLatest saving.project) next ∧
      ∀ latest e, denial? latest saving.project saving.user = some e →
        next latest = .done (.error e) := by
  cases saving with
  | call c => exact h.elim
  | owned project user destination content =>
    refine ⟨_, rfl, fun latest e he => ?_⟩
    have hdenial : denial? latest project user = some e := he
    simp only [Program.bind, hdenial]
    rfl
  | rough project user destination content =>
    refine ⟨_, rfl, fun latest e he => ?_⟩
    have hdenial : denial? latest project user = some e := he
    simp only [Program.bind, hdenial]
    rfl

end Allots

/-! ## One owner -/

variable {ι : Type} [DecidableEq ι] {read : Markup.OutlineReader} {settings : Settings} {saves : ι → Saving}
  {service : Service} {project owner : String}

/-- A project that is open to a user stays so when nobody else is given a revision of it. -/
theorem openTo_perform {s : Service} (h : s.store.OpenTo project owner) {st : Step}
    (hst : ∀ number user, st = .insertRevision project number user → user = owner) (terms : Terms)
    (d : Option Disturbance) : (s.perform terms d st).2.store.OpenTo project owner := by
  have hstep := storeStep_perform terms d st s
  generalize (s.perform terms d st).2.store = store at hstep
  cases hstep with
  | nothing | role | version => exact h
  | file ha =>
    obtain ⟨-, -, rfl⟩ := addFile_eq_some.1 ha
    exact h
  | revision ha =>
    obtain ⟨-, hrow, rfl⟩ := addRevision_eq_some.1 ha
    intro r hr hp
    rcases List.mem_append.1 hr with hr | hr
    · exact h r hr hp
    · rw [List.mem_singleton.1 hr, hrow] at hp ⊢
      dsimp only at hp ⊢
      subst hp
      exact hst _ _ rfl

/-- Saves beside each other by which a project is one user's: saves of it by others have not begun or were
refused. -/
structure OneOwner (read : Markup.OutlineReader) (settings : Settings) (saves : ι → Saving)
    (project owner : String) (c : Crowd ι (Except SiteError Saved)) : Prop where
  openTo : c.service.store.OpenTo project owner
  allots : ∀ i, (c.programs i).Every (Step.Allots (saves i).project (saves i).user) fun _ => True
  others : ∀ i, (saves i).project = project → (saves i).user ≠ owner →
    c.programs i = (saves i).program read settings ∨ ∃ e, c.programs i = .done (.error e)

/-- Whether a turn is not one in which somebody other than a user asks for the owner of a project that has
no revisions. -/
def AsksLate (saves : ι → Saving) (project owner : String) (c : Crowd ι (Except SiteError Saved))
    (t : Turn ι) : Prop :=
  (saves t.who).project = project → (saves t.who).user ≠ owner →
    (∃ next, c.programs t.who = .step (.readLatest project) next) →
      c.service.store.latest? project ≠ none

namespace OneOwner

variable {c : Crowd ι (Except SiteError Saved)} {t : Turn ι}

omit [DecidableEq ι] in
theorem savings (h : service.store.OpenTo project owner) :
    OneOwner read settings saves project owner (savings read settings saves service) where
  openTo := h
  allots i := (saves i).program_allots read settings
  others _ _ _ := .inl rfl

omit [DecidableEq ι] in
/-- Once there is a revision, somebody else who asks for the owner is refused. -/
theorem denial? (h : OneOwner read settings saves project owner c) {user : String} (hu : user ≠ owner)
    (hl : c.service.store.latest? project ≠ none) :
    denial? (c.service.store.latest? project) project user = some (.foreignProject project) := by
  obtain ⟨r, hr⟩ := Option.ne_none_iff_exists'.1 hl
  obtain ⟨hm, hp, -⟩ := latest?_eq_some hr
  exact BelongsTo.denial?_eq ⟨⟨r, hm, hp⟩, h.openTo⟩ hu

theorem turn (h : OneOwner read settings saves project owner c)
    (hasks : ∀ i, (saves i).project = project → (saves i).user ≠ owner → (saves i).AsksForOwner)
    (hlate : AsksLate saves project owner c t) :
    OneOwner read settings saves project owner (c.turn t) := by
  obtain ⟨-, hsame⟩ | ⟨st, next, hp, hprograms, hservice⟩ := c.turn_cases t
  · rw [hsame]
    exact h
  have hallots := h.allots t.who
  rw [hp] at hallots
  refine ⟨?_, ?_, ?_⟩
  · rw [hservice]
    refine openTo_perform h.openTo (fun number user he => ?_) _ _
    obtain ⟨hproject, huser⟩ := hallots.1 _ _ _ he
    rw [huser]
    by_contra hu
    -- Somebody else's save has not come to its revision.
    rcases h.others t.who hproject.symm hu with hbegins | ⟨e, hended⟩
    · obtain ⟨next', hasks', -⟩ :=
        Saving.program_of_asksForOwner (hasks t.who hproject.symm hu) read settings
      subst he
      cases hp.symm.trans (hbegins.trans hasks')
    · cases hp.symm.trans hended
  · rw [hprograms, Function.forall_update_iff c.programs fun i p =>
      p.Every (Step.Allots (saves i).project (saves i).user) fun _ => True]
    exact ⟨hallots.2 _, fun i _ => h.allots i⟩
  · rw [hprograms, Function.forall_update_iff c.programs fun i p =>
      (saves i).project = project → (saves i).user ≠ owner →
        p = (saves i).program read settings ∨ ∃ e, p = .done (.error e)]
    refine ⟨fun hi hu => ?_, fun i _ => h.others i⟩
    rcases h.others t.who hi hu with hbegins | ⟨e, hended⟩
    · obtain ⟨next', hasks', hrefused⟩ :=
        Saving.program_of_asksForOwner (hasks t.who hi hu) read settings
      rw [hi] at hasks' hrefused
      have hbegun := hbegins.trans hasks'
      cases hp.symm.trans hbegun
      exact .inr ⟨_, hrefused _ _ (h.denial? hu (hlate hi hu ⟨_, hbegun⟩))⟩
    · cases hp.symm.trans hended

end OneOwner

/-- Saves beside each other, whatever befalls their steps: when a project has no revisions, or revisions of
one user only, and everybody else's saves of it ask for the owner and do so only once there is a revision,
it never has revisions of anybody else, and nobody else's save of it is accepted. -/
theorem openTo_of_play
    (hasks : ∀ i, (saves i).project = project → (saves i).user ≠ owner → (saves i).AsksForOwner)
    (hopen : service.store.OpenTo project owner) {turns : List (Turn ι)}
    (hlate : (savings read settings saves service).Along (AsksLate saves project owner) turns) :
    ((savings read settings saves service).play turns).service.store.OpenTo project owner ∧
      ∀ i saved, (saves i).project = project →
        ((savings read settings saves service).play turns).programs i = .done (.ok saved) →
          (saves i).user = owner := by
  have hone : OneOwner read settings saves project owner ((savings read settings saves service).play turns) :=
    Crowd.play_induction (fun _ _ ht h => h.turn hasks ht) (.savings hopen) hlate
  refine ⟨hone.openTo, fun i saved hi hsaved => ?_⟩
  by_contra hu
  rcases hone.others i hi hu with hbegins | ⟨e, hended⟩
  · obtain ⟨next, hasks', -⟩ := Saving.program_of_asksForOwner (hasks i hi hu) read settings
    cases (hsaved.symm.trans hbegins).trans hasks'
  · cases hsaved.symm.trans hended

/-! ## Two users of a new project -/

/-- Saves of a new project by two users. -/
def newcomers : Fin 2 → Saving
  | 0 => .owned "shop" "ann" "pages/home.jsx" "first"
  | 1 => .owned "shop" "bob" "pages/home.jsx" "second"

/-- So many turns of one of two in a row. -/
def newcomer (i : Fin 2) (count : Nat) : List (Turn (Fin 2)) := spell (.ofSettings {} 0) i count

/-- Who asks second, once the first one's save is there, is refused. -/
theorem openTo_of_play_refused :
    let c := (savings ofMarkup {} newcomers unnamed).play (newcomer 0 7 ++ newcomer 1 1)
    (∃ saved, c.programs 0 = .done (.ok saved)) ∧
      c.programs 1 = .done (.error (.foreignProject "shop")) ∧
      c.service.store.OpenTo "shop" "ann" ∧ c.service.store.revisions.length = 1 := by
  have hann : (savings ofMarkup {} newcomers unnamed).Along (AsksLate newcomers "shop" "ann")
      (newcomer 0 7) := by
    refine Crowd.along_of_forall fun t ht c _ hu => ?_
    rw [List.eq_of_mem_replicate ht] at hu
    exact absurd rfl hu
  have hlatest : ((savings ofMarkup {} newcomers unnamed).play (newcomer 0 7)).service.store.latest? "shop" ≠
      none := by
    decide +kernel
  have hbob : ((savings ofMarkup {} newcomers unnamed).play (newcomer 0 7)).Along
      (AsksLate newcomers "shop" "ann") (newcomer 1 1) :=
    ⟨fun _ _ _ => hlatest, trivial⟩
  have hasks : ∀ i, (newcomers i).project = "shop" → (newcomers i).user ≠ "ann" →
      (newcomers i).AsksForOwner := by
    rw [Fin.forall_fin_two]
    exact ⟨fun _ _ => trivial, fun _ _ => trivial⟩
  have hopen : unnamed.store.OpenTo "shop" "ann" := by decide
  have hplay := openTo_of_play hasks hopen (Crowd.along_append.2 ⟨hann, hbob⟩)
  exact ⟨⟨_, rfl⟩, rfl, hplay.1, by decide +kernel⟩

/-- Two users who both ask before there is a revision both save. -/
theorem exists_play_of_two_owners :
    ∃ turns, let c := (savings ofMarkup {} newcomers unnamed).play turns
      (∃ saved, c.programs 0 = .done (.ok saved)) ∧ (∃ saved, c.programs 1 = .done (.ok saved)) ∧
        c.service.store.revisions.map (fun r => (r.project, r.number, r.user)) =
          [("shop", 1, "ann"), ("shop", 2, "bob")] := by
  refine ⟨newcomer 0 1 ++ newcomer 1 1 ++ newcomer 0 6 ++ newcomer 1 6, ⟨_, rfl⟩, ⟨_, rfl⟩, ?_⟩
  decide +kernel

end VersionedSite.Service
