import VersionedSite.Proofs.Service.Composition
import VersionedSite.Proofs.Service.Interleaving
import VersionedSite.Proofs.Service.Reliance

/-!
# Revisions that stay as they are

A save has its revision before it has written its version, each in a transaction of its own. In between
the revision can be seen, and shows what was there before; then the version comes
(`exists_reaches_of_allotted`). While no save holds a revision up to a number, what is seen at that number
stays as it is, whatever is done beside each other and whatever befalls the steps
(`immutable_of_spares`).

* `Program.Spares`: whether a program leaves certain revisions alone that others have been given.
* `Settled.move`: what a move leaves of what is seen at a number.
-/

namespace VersionedSite.Service

open Store Program
open Markup.Outline (ofMarkup)

/-! ## Programs that leave revisions alone -/

/-- The revision that a step's answer tells of as inserted. -/
def Step.allotted? : (st : Step) → st.Answer → Option Revision
  | .insertRevision .., .ok r => some r
  | _, _ => none

/-- Whether a program inserts no version at certain revisions, as long as it is not given any of them. -/
def Program.Spares {α : Type} (frozen : Int → Prop) : Program α → Prop
  | done _ => True
  | step st next =>
    (∀ file revision content, st = .insertVersion file revision content → ¬ frozen revision) ∧
      ∀ answer : st.Answer, (∀ r, st.allotted? answer = some r → ¬ frozen r.id) →
        (next answer).Spares frozen

section Spares

variable {α β : Type} {frozen : Int → Prop} {project user path role : String}

theorem spares_bind {p : Program α} {f : α → Program β} (hp : p.Spares frozen)
    (hf : ∀ a, (f a).Spares frozen) : (p >>= f).Spares frozen := by
  change (p.bind f).Spares frozen
  induction p with
  | done a => exact hf a
  | step st next ih => exact ⟨hp.1, fun answer ha => ih answer (hp.2 answer ha)⟩

theorem spares_take {st : Step}
    (h : ∀ file revision content, st = .insertVersion file revision content → ¬ frozen revision) :
    (take st).Spares frozen :=
  ⟨h, fun _ _ => trivial⟩

/-- Whoever allocates a revision is given one that is not among those that others have been given. -/
theorem spares_allocate_bind {f : Except AllocationFault Revision → Program β}
    (he : ∀ fault, (f (.error fault)).Spares frozen)
    (hr : ∀ r, ¬ frozen r.id → (f (.ok r)).Spares frozen) (attempts : Nat) (tried : Int) :
    (allocate project user attempts tried >>= f).Spares frozen := by
  induction attempts generalizing tried with
  | zero => exact he _
  | succ attempts ih =>
    refine ⟨by simp, fun number _ => ?_⟩
    refine ⟨by simp, fun answer ha => ?_⟩
    match answer, ha with
    | .ok r, ha => exact hr r (ha r rfl)
    | .error .taken, _ => exact ih number
    | .error .broken, _ => exact he _
    | .error (.untimely _), _ => exact he _

theorem spares_recordFileOnce : (recordFileOnce project path role).Spares frozen := by
  refine spares_bind (spares_take (by simp)) fun a => ?_
  match a with
  | .error fault => trivial
  | .ok (some found) => exact spares_take (by simp)
  | .ok none => exact spares_take (by simp)

theorem spares_writeDraft {draft : FileDraft} {r : Revision} (hr : ¬ frozen r.id) :
    (writeDraft project draft r).Spares frozen := by
  refine spares_bind (spares_bind spares_recordFileOnce fun a => ?_) fun a => ?_
  · match a with
    | .error .taken => exact spares_recordFileOnce
    | .error .broken => trivial
    | .error (.untimely _) => trivial
    | .ok f => trivial
  · cases a with
    | error fault => trivial
    | ok f =>
      refine spares_take fun file revision content he => ?_
      cases he
      exact hr

theorem spares_persist (settings : Settings) {draft : FileDraft} :
    (persist settings project user draft).Spares frozen := by
  refine spares_allocate_bind (fun fault => ?_) (fun r hr => ?_) _ _
  · cases fault <;> trivial
  · refine spares_bind (spares_writeDraft hr) fun a => ?_
    cases a with
    | ok v => trivial
    | error fault => exact spares_bind (spares_take (by simp)) fun _ => trivial

theorem spares_saveFor (read : Markup.OutlineReader) (settings : Settings)
    (project user destination content : String) :
    (saveFor read settings project user destination content).Spares frozen := by
  refine spares_bind (spares_take (by simp)) fun b => ?_
  dsimp only
  split
  · trivial
  · split
    · trivial
    · exact spares_persist settings

/-- A save that has not begun holds no revision. -/
theorem Saving.program_spares (read : Markup.OutlineReader) (settings : Settings) (saving : Saving) :
    (saving.program read settings).Spares frozen := by
  cases saving with
  | call c =>
    cases c with
    | save project user destination content => exact spares_saveFor read settings _ _ _ _
    | retry project user =>
      refine spares_bind (spares_take (by simp)) fun found => ?_
      cases found with
      | none => trivial
      | some save =>
        refine spares_bind (spares_persist settings) fun a => ?_
        cases a with
        | error e => trivial
        | ok saved => exact spares_bind (spares_take (by simp)) fun _ => trivial
  | owned project user destination content =>
    refine spares_bind (spares_take (by simp)) fun latest => ?_
    split
    · trivial
    · exact spares_saveFor read settings _ _ _ _
  | rough project user destination content =>
    refine spares_bind (spares_take (by simp)) fun latest => ?_
    split
    · trivial
    · refine spares_bind (spares_take (by simp)) fun b => ?_
      dsimp only
      split
      · trivial
      · split
        · trivial
        · trivial
        · split
          · trivial
          · trivial
          · refine spares_allocate_bind (fun fault => ?_) (fun r _ => ?_) _ _
            · cases fault <;> trivial
            · trivial

end Spares

/-! ## What a step leaves -/

section Perform

variable {s : Service} {st : Step} {project : String} {n : Int} {frozen : Int → Prop}

/-- A new revision has a number behind all that had been given out. -/
theorem mem_revisions_perform (h : st.IsFounded s.store) (terms : Terms) (d : Option Disturbance)
    (hn : n ≤ s.store.greatest project) {r : Revision}
    (hr : r ∈ (s.perform terms d st).2.store.revisions) (hp : r.project = project)
    (hle : r.number ≤ n) : r ∈ s.store.revisions := by
  have hstep := storeStep_perform terms d st s
  generalize (s.perform terms d st).2.store = store at hstep hr
  cases hstep with
  | nothing | role | version => exact hr
  | file ha =>
    obtain ⟨-, -, rfl⟩ := addFile_eq_some.1 ha
    exact hr
  | revision ha =>
    have hnumber := HasBeenNext.eq_of_free h ha
    obtain ⟨-, hrow, rfl⟩ := addRevision_eq_some.1 ha
    rcases List.mem_append.1 hr with hr | hr
    · exact hr
    · rw [List.mem_singleton.1 hr, hrow] at hp hle
      dsimp only at hp hle
      subst hp
      omega

/-- A step shows nothing at a number, unless it is the insertion of a version at a revision with a number
up to that one. -/
theorem sameContents_perform (h : st.IsFounded s.store) (hs : s.store.Sound) (terms : Terms)
    (d : Option Disturbance)
    (hspares : ∀ file revision content, st = .insertVersion file revision content → ¬ frozen revision)
    (hcovered : ∀ r ∈ s.store.revisions, r.project = project → r.number ≤ n → frozen r.id) :
    SameContents project s.store n (s.perform terms d st).2.store n := by
  have hstep := storeStep_perform terms d st s
  generalize (s.perform terms d st).2.store = store at hstep
  cases hstep with
  | nothing => exact .refl _ _ _
  | revision ha => exact sameContents_of_seen_eq (hs.seen_addRevision ha)
  | file ha => exact sameContents_of_seen_eq (hs.seen_addFile ha)
  | role => exact sameContents_updateFile _ _ _ _
  | version =>
    obtain ⟨f, hf, r, hr, rfl, rfl, hp⟩ := h
    refine sameContents_addVersion hs hf hr hp (fun hproject => ?_) _
    by_contra hle
    exact hspares _ _ _ rfl (hcovered r hr hproject (by omega))

/-- A revision that is given is none that is there already. -/
theorem spares_answer {α : Type} {next : st.Answer → Program α}
    (hold : ∀ id, frozen id → ∃ r ∈ s.store.revisions, r.id = id)
    (h : (Program.step st next).Spares frozen) (terms : Terms) (d : Option Disturbance) :
    (next (s.perform terms d st).1).Spares frozen := by
  refine h.2 _ fun r hr hfrozen => ?_
  obtain ⟨r', hr', hid⟩ := hold r.id hfrozen
  cases st with
  | insertRevision project number user =>
    obtain ⟨fault, ha, -⟩ | ⟨r₀, store, ha, hadd, -⟩ :=
      insertRevision_ends (ends_perform terms d (.insertRevision project number user) s)
    · rw [ha] at hr
      cases hr
    · rw [ha] at hr
      cases hr
      rw [(addRevision_eq_some.1 hadd).2.1] at hid
      exact ne_nextId hr' hid
  | _ => cases hr

end Perform

/-! ## Saves beside each other -/

/-- Whether what befalls a step is not that it reads a number too late. -/
def IsTimely (d : Option Disturbance) : Prop := ∀ n, d ≠ some (.outdated n)

/-- Whether all tables but that of the publications are left alone. -/
def KeepsTables (s t : Service) : Prop := ∃ publications, t.store = { s.store with publications }

namespace Crowd

variable {ι α : Type} [DecidableEq ι]

/-- What can come about in the course of time: programs take their steps, which may be disturbed except that
no number is read too late, and between them happens whatever leaves all tables but that of the publications
alone, as whatever reads or publishes does. -/
def Reaches : Crowd ι α → Crowd ι α → Prop := Leads (Move.Obeys IsTimely KeepsTables)

/-- Programs that build on what is there. -/
structure Orderly (c : Crowd ι α) : Prop where
  sound : c.service.store.Sound
  coherent : c.service.store.Coherent
  founded : ∀ i, (c.programs i).Founded (fun _ _ => True) c.service.store

variable {c c' : Crowd ι α}

theorem Orderly.move (h : c.Orderly) {m : Move ι} (hm : m.Obeys IsTimely KeepsTables) :
    (c.move m).Orderly := by
  cases m with
  | own i terms d =>
    obtain ⟨-, hsame⟩ | ⟨st, next, hi, hmove⟩ := c.own_cases i terms d
    · rwa [hsame]
    have hstep := h.founded i
    rw [hi] at hstep
    obtain ⟨hfounded, hnext⟩ := hstep c.service (.refl _)
    rw [hmove]
    refine ⟨sound_perform hfounded terms d h.sound, coherent_perform hfounded terms d h.coherent, ?_⟩
    rw [Function.forall_update_iff c.programs fun _ p => p.Founded _ _]
    exact ⟨hnext terms d hm, fun j _ =>
      (h.founded j).mono (evolves_perform hfounded terms d) fun _ _ => trivial⟩
  | foreign change =>
    obtain ⟨publications, hstore⟩ := hm c.service
    refine ⟨?_, ?_, fun j => (h.founded j).mono ?_ fun _ _ => trivial⟩
    · show (change c.service).store.Sound
      rw [hstore]
      exact { h.sound with }
    · show (change c.service).store.Coherent
      rw [hstore]
      exact h.coherent
    · show c.service.store.Evolves (change c.service).store
      rw [hstore]
      exact evolves_of_eq rfl rfl

theorem Orderly.reaches (h : c.Orderly) (hr : c.Reaches c') : c'.Orderly :=
  hr.induction (fun _ _ hm h => h.move hm) h

/-- Programs none of which holds certain revisions: those of a project with numbers up to one that has
been given out. What was seen at that number in a store is still seen. -/
structure Settled (project : String) (n : Int) (frozen : Int → Prop) (base : Store)
    (c : Crowd ι α) : Prop extends Orderly c where
  le_greatest : n ≤ c.service.store.greatest project
  covered : ∀ r ∈ c.service.store.revisions, r.project = project → r.number ≤ n → frozen r.id
  old : ∀ id, frozen id → ∃ r ∈ c.service.store.revisions, r.id = id
  spares : ∀ i, (c.programs i).Spares frozen
  same : SameContents project base n c.service.store n

variable {project : String} {n : Int} {frozen : Int → Prop} {base : Store}

theorem Settled.move (h : Settled project n frozen base c) {m : Move ι}
    (hm : m.Obeys IsTimely KeepsTables) : Settled project n frozen base (c.move m) := by
  have horderly := h.toOrderly.move hm
  cases m with
  | own i terms d =>
    obtain ⟨-, hsame⟩ | ⟨st, next, hi, hmove⟩ := c.own_cases i terms d
    · rwa [hsame]
    have hstep := h.founded i
    have hspares := h.spares i
    rw [hi] at hstep hspares
    have hfounded := (hstep c.service (.refl _)).1
    have hevolves := evolves_perform hfounded terms d
    rw [hmove] at horderly ⊢
    refine { horderly with
      le_greatest := Int.le_trans h.le_greatest (hevolves.greatest_le project)
      covered := fun r hr hp hle => ?_
      old := fun id hid => ?_
      spares := ?_
      same := h.same.trans (sameContents_perform hfounded h.sound terms d hspares.1 h.covered) }
    · exact h.covered r (mem_revisions_perform hfounded terms d h.le_greatest hr hp hle) hp hle
    · obtain ⟨r, hr, he⟩ := h.old id hid
      exact ⟨r, hevolves.revisions hr, he⟩
    · rw [Function.forall_update_iff c.programs fun _ p => p.Spares frozen]
      exact ⟨spares_answer h.old hspares terms d, fun j _ => h.spares j⟩
  | foreign change =>
    obtain ⟨publications, hstore⟩ := hm c.service
    have hmove : (c.move (.foreign change)).service.store = { c.service.store with publications } :=
      hstore
    refine { horderly with le_greatest := ?_, covered := ?_, old := ?_, spares := h.spares, same := ?_ }
      <;> rw [hmove]
    · exact h.le_greatest
    · exact h.covered
    · exact h.old
    · exact h.same

theorem Settled.reaches (h : Settled project n frozen base c) (hr : c.Reaches c') :
    Settled project n frozen base c' :=
  hr.induction (fun _ _ hm h => h.move hm) h

end Crowd

/-- Saves that begin beside each other. -/
def savings {ι : Type} (read : Markup.OutlineReader) (settings : Settings) (saves : ι → Saving)
    (service : Service) : Crowd ι (Except SiteError Saved) :=
  { programs := fun i => (saves i).program read settings, service }

section Savings

variable {ι : Type} [DecidableEq ι] {read : Markup.OutlineReader} {settings : Settings}
  {saves : ι → Saving} {service : Service}

omit [DecidableEq ι] in
theorem orderly_savings (hs : service.store.Sound) (hc : service.store.Coherent) :
    (savings read settings saves service).Orderly :=
  ⟨hs, hc, fun i => (saves i).program_founded read settings _⟩

/-- Saves beside each other and beside whatever reads and publishes, whatever befalls their steps: when
none of them holds a revision of a project with a number up to one that has been given out, everybody who
looks at the project at that number, however much later, sees the same paths with the same contents. -/
theorem immutable_of_spares (hs : service.store.Sound) (hc : service.store.Coherent)
    {c c' : Crowd ι (Except SiteError Saved)}
    (hbefore : (savings read settings saves service).Reaches c) (hafter : c.Reaches c')
    {project : String} {n : Int} (hn : n ≤ c.service.store.greatest project)
    (hspares : ∀ i, (c.programs i).Spares fun id =>
      ∃ r ∈ c.service.store.revisions, r.id = id ∧ r.project = project ∧ r.number ≤ n) :
    (∀ path, (c'.service.store.contentAt project path n).map VisibleFile.contents =
      (c.service.store.contentAt project path n).map VisibleFile.contents) ∧
    (c'.service.store.filesAt project n).map VisibleFile.contents =
      (c.service.store.filesAt project n).map VisibleFile.contents ∧
    flavour? c'.service.store project n = flavour? c.service.store project n ∧
    ∀ settings tools, (documentAt settings tools c'.service project n).1 =
      (documentAt settings tools c.service project n).1 := by
  have horderly := (orderly_savings hs hc).reaches hbefore
  have hsettled : c.Settled project n (fun id => ∃ r ∈ c.service.store.revisions,
      r.id = id ∧ r.project = project ∧ r.number ≤ n) c.service.store :=
    { horderly with
      le_greatest := hn
      covered := fun r hr hp hle => ⟨r, hr, rfl, hp, hle⟩
      old := fun id ⟨r, hr, he, _⟩ => ⟨r, hr, he⟩
      spares := hspares
      same := .refl _ _ _ }
  have hlater := hsettled.reaches hafter
  have hkeyed := horderly.sound.toKeyed
  have hkeyed' := hlater.sound.toKeyed
  refine ⟨hlater.same, ?_, flavour?_congr hlater.same, fun settings tools => ?_⟩
  · exact hlater.same.filesAt hkeyed horderly.coherent hkeyed' hlater.coherent
  · exact documentAt_congr hlater.same hkeyed horderly.coherent hkeyed' hlater.coherent settings tools

end Savings

/-! ## A save beside a reader -/

/-- Two saves of one project. -/
def twoSavings : Crowd (Fin 2) (Except SiteError Saved) :=
  let content (i : Fin 2) := if i.val = 0 then "first" else "second"
  savings ofMarkup {} (fun i => .call (.save "shop" "ann" "pages/home.jsx" (content i))) unnamed

/-- A crowd after so many steps of one of two in a row. -/
def after (c : Crowd (Fin 2) (Except SiteError Saved)) (i : Fin 2) (count : Nat) :
    Crowd (Fin 2) (Except SiteError Saved) :=
  c.run (List.replicate count (.own i (.ofSettings {} 0)))

theorem reaches_after (c : Crowd (Fin 2) (Except SiteError Saved)) (i : Fin 2) (count : Nat) :
    c.Reaches (after c i count) := by
  refine ⟨_, fun m hm => ?_, rfl⟩
  rw [List.eq_of_mem_replicate hm]
  exact fun _ => nofun

/-- Who looks at a project between the two steps of a save sees the latest revision without what is saved
there. -/
theorem exists_reaches_of_allotted :
    ∃ c c', twoSavings.Reaches c ∧ c.Reaches c' ∧
      (c.service.store.latest? "shop").map Revision.number = some 1 ∧
      c.service.store.filesAt "shop" 1 = [] ∧
      (c'.service.store.filesAt "shop" 1).map VisibleFile.contents =
        [("pages/home.jsx", "first", 1)] := by
  refine ⟨after twoSavings 0 3, after (after twoSavings 0 3) 0 3, reaches_after _ _ _,
    reaches_after _ _ _, ?_, ?_, ?_⟩
  · decide +kernel
  · decide +kernel
  · decide +kernel

/-- What was saved first is seen at its number whatever is saved behind it. -/
theorem immutable_of_spares_second :
    let c := after twoSavings 0 6
    let c' := after c 1 6
    c.service.store.greatest "shop" = 1 ∧ c'.service.store.greatest "shop" = 2 ∧
      (c'.service.store.contentAt "shop" "pages/home.jsx" 1).map VisibleFile.contents =
        some ("pages/home.jsx", "first", 1) := by
  have hgreatest : (after twoSavings 0 6).service.store.greatest "shop" = 1 := by decide +kernel
  refine ⟨hgreatest, by decide +kernel, ?_⟩
  have hspares : ∀ i, ((after twoSavings 0 6).programs i).Spares fun id =>
      ∃ r ∈ (after twoSavings 0 6).service.store.revisions,
        r.id = id ∧ r.project = "shop" ∧ r.number ≤ 1 := by
    rw [Fin.forall_fin_two]
    refine ⟨?_, ?_⟩
    · have hdone : ∃ a, (after twoSavings 0 6).programs 0 = .done a := ⟨_, rfl⟩
      obtain ⟨a, ha⟩ := hdone
      rw [ha]
      trivial
    · exact Saving.program_spares ofMarkup {} (.call (.save "shop" "ann" "pages/home.jsx" "second"))
  have hsame := immutable_of_spares sound_empty coherent_empty (reaches_after twoSavings 0 6)
    (reaches_after (after twoSavings 0 6) 1 6) (Int.le_of_eq hgreatest.symm) hspares
  refine (hsame.1 "pages/home.jsx").trans ?_
  decide +kernel

end VersionedSite.Service
