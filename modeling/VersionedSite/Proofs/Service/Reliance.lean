import VersionedSite.Proofs.Service.History
import VersionedSite.Proofs.Store.Evolution

/-!
# Programs that rely on each other

A save builds on what it was told: it inserts the number that it has read, and a version of the file and
at the revision that it was given. Whatever others do in between, as long as they do the same, that is
still there when its step comes (`Program.Founded`). So are all saves, beside each other and whatever
befalls their steps (`Saving.program_founded`).

* `evolves_perform`, `sound_perform`, `coherent_perform`: what steps that build on what is there leave.
* `founded_bind`: programs in sequence.
-/

namespace VersionedSite.Service

open Store

/-! ## Steps -/

variable {terms : Terms} {s t u : Service} {project user path role : String}

/-- Whether a step builds on what is there. -/
def Step.IsFounded (s : Store) : Step → Prop
  | insertRevision project number _ => s.HasBeenNext project number
  | insertVersion file revision _ =>
    ∃ f ∈ s.files, ∃ r ∈ s.revisions, f.id = file ∧ r.id = revision ∧ r.project = f.project
  | _ => True

section Perform

variable {st : Step} (h : st.IsFounded s.store) (terms : Terms) (d : Option Disturbance)

include h

theorem evolves_perform : s.store.Evolves (s.perform terms d st).2.store := by
  have hstep := storeStep_perform terms d st s
  generalize (s.perform terms d st).2.store = store at hstep
  cases hstep with
  | nothing => exact .refl _
  | revision ha => exact evolves_addRevision ha h
  | file ha => exact evolves_addFile ha
  | role => exact evolves_updateFile _ _ _ _
  | version => exact evolves_addVersion _ _ _ _ _

theorem sound_perform (hs : s.store.Sound) : (s.perform terms d st).2.store.Sound := by
  have hstep := storeStep_perform terms d st s
  generalize (s.perform terms d st).2.store = store at hstep
  cases hstep with
  | nothing => exact hs
  | revision ha => exact hs.addRevision ha
  | file ha => exact hs.addFile ha
  | role => exact hs.updateFile _ _
  | version =>
    obtain ⟨f, hf, r, hr, hfi, hri, -⟩ := h
    exact hs.addVersion ⟨f, hf, hfi⟩ ⟨r, hr, hri⟩

theorem coherent_perform (hc : s.store.Coherent) : (s.perform terms d st).2.store.Coherent := by
  have hstep := storeStep_perform terms d st s
  generalize (s.perform terms d st).2.store = store at hstep
  cases hstep with
  | nothing => exact hc
  | revision ha => exact coherent_addRevision hc ha
  | file ha => exact coherent_addFile hc ha
  | role => exact coherent_updateFile hc _
  | version =>
    obtain ⟨f, hf, r, hr, rfl, rfl, hp⟩ := h
    exact coherent_addVersion hc hf hr hp _

end Perform

/-! ## Programs -/

namespace Program

variable {α β : Type} {s t : Store} {Q : α → Store → Prop}

/-- Whether every step of a program builds on what is there when it is taken, and the program comes to a
result of a certain kind; others may make the store evolve in between, and steps may be disturbed,
except that no number is read too late. -/
def Founded (Q : α → Store → Prop) : Program α → Store → Prop
  | done a, s => Q a s
  | step st next, s =>
    ∀ t : Service, s.Evolves t.store → st.IsFounded t.store ∧
      ∀ (terms : Terms) (d : Option Disturbance), (∀ n, d ≠ some (.outdated n)) →
        (next (t.perform terms d st).1).Founded Q (t.perform terms d st).2.store

/-- A program that is founded stays so when others make the store evolve. -/
theorem Founded.mono {p : Program α} (hp : p.Founded Q s) (h : s.Evolves t)
    (hq : ∀ a, Q a s → Q a t) : p.Founded Q t := by
  cases p with
  | done a => exact hq a hp
  | step st next => exact fun u hu => hp u (h.trans hu)

theorem founded_bind {p : Program α} {f : α → Program β} {R : β → Store → Prop}
    (hp : p.Founded Q s) (hf : ∀ a t, s.Evolves t → Q a t → (f a).Founded R t) :
    (p >>= f).Founded R s := by
  change (p.bind f).Founded R s
  induction p generalizing s with
  | done a => exact hf a s (.refl s) hp
  | step st next ih =>
    intro t ht
    obtain ⟨hfounded, hnext⟩ := hp t ht
    refine ⟨hfounded, fun terms d hd => ?_⟩
    refine ih _ (hnext terms d hd) fun a u hu hq => ?_
    exact hf a u (ht.trans ((evolves_perform hfounded terms d).trans hu)) hq

theorem founded_take {st : Step} {Q : st.Answer → Store → Prop}
    (h : ∀ t : Service, s.Evolves t.store → st.IsFounded t.store ∧
      ∀ (terms : Terms) (d : Option Disturbance), (∀ n, d ≠ some (.outdated n)) →
        Q (t.perform terms d st).1 (t.perform terms d st).2.store) :
    (take st).Founded Q s := h

/-- A step that inserts neither a revision nor a version. -/
theorem founded_take_any {st : Step} (h : ∀ s, st.IsFounded s) :
    (take st).Founded (fun _ _ => True) s :=
  fun t _ => ⟨h t.store, fun _ _ _ => trivial⟩

end Program

open Program

section Parts

variable {s : Store} {number : Int} {r : Revision}

theorem ends_perform (terms : Terms) (d : Option Disturbance) (st : Step) (s : Service) :
    (take st).Ends terms (fun _ => True) s (s.perform terms d st).1 (s.perform terms d st).2 :=
  ends_take.2 ⟨d, fun _ _ => trivial, rfl⟩

/-- Whether a revision that is answered with is there. -/
def GivesRevision {ε : Type} (project : String) (a : Except ε Revision) (s : Store) : Prop :=
  ∀ r, a = .ok r → r ∈ s.revisions ∧ r.project = project

/-- Whether a file that is answered with is there. -/
def GivesFile (project path : String) (a : Except WriteFault FileRecord) (s : Store) : Prop :=
  ∀ f, a = .ok f → s.HoldsFile f.id project path

theorem readNextNumber_founded :
    (take (.readNextNumber project)).Founded (fun n t => t.HasBeenNext project n) s := by
  refine founded_take fun t _ => ⟨trivial, fun terms d hd => ?_⟩
  simp only [perform]
  exact hasBeenNext_next _ _

theorem insertRevision_founded (h : s.HasBeenNext project number) :
    (take (.insertRevision project number user)).Founded (GivesRevision project) s := by
  refine founded_take fun t ht => ⟨ht.hasBeenNext _ _ h, fun terms d _ r hr => ?_⟩
  obtain ⟨fault, ha, -⟩ | ⟨r', store, ha, hadd, he⟩ :=
    insertRevision_ends (ends_perform terms d (.insertRevision project number user) t)
  · cases ha.symm.trans hr
  · cases ha.symm.trans hr
    obtain ⟨-, hrow, hstore⟩ := addRevision_eq_some.1 hadd
    rw [he, hstore, hrow]
    exact ⟨by simp, rfl⟩

theorem findFile_founded :
    (take (.findFile project path)).Founded
      (fun a t => ∀ f, a = .ok (some f) → t.HoldsFile f.id project path) s := by
  refine founded_take fun t _ => ⟨trivial, fun terms d _ f hf => ?_⟩
  obtain ⟨he, hfound⟩ := findFile_ends (ends_perform terms d (.findFile project path) t)
  have hfile := hfound f hf
  have hk := List.find?_some hfile
  rw [decide_eq_true_eq] at hk
  rw [he]
  exact ⟨f, List.mem_of_find?_eq_some hfile, rfl, hk⟩

theorem insertFile_founded :
    (take (.insertFile project path role)).Founded (GivesFile project path) s := by
  refine founded_take fun t _ => ⟨trivial, fun terms d _ f hf => ?_⟩
  obtain ⟨fault, ha, -⟩ | ⟨f', store, ha, hadd, he⟩ :=
    insertFile_ends (ends_perform terms d (.insertFile project path role) t)
  · cases ha.symm.trans hf
  · cases ha.symm.trans hf
    obtain ⟨-, hrow, hstore⟩ := addFile_eq_some.1 hadd
    rw [he, hstore, hrow]
    exact ⟨_, List.mem_append_right _ (List.mem_singleton.2 rfl), rfl, rfl, rfl⟩

/-- A file that was found is still there when it is given a role. -/
theorem updateFile_founded {found : FileRecord} (h : s.HoldsFile found.id project path) :
    (take (.updateFile found role)).Founded (GivesFile project path) s := by
  refine founded_take fun t ht => ⟨trivial, fun terms d _ f hf => ?_⟩
  obtain ⟨fault, ha, -⟩ | ⟨f', store, ha, hupdated, he⟩ :=
    updateFile_ends (ends_perform terms d (.updateFile found role) t)
  · cases ha.symm.trans hf
  · cases ha.symm.trans hf
    cases hupdated
    rw [he]
    exact (grows_updateFile _ _ _ _).files _ _ _ (ht.files _ _ _ h)

theorem insertVersion_founded {f : FileRecord} (hf : s.HoldsFile f.id project path)
    (hr : r ∈ s.revisions) (hp : r.project = project) (content : String) :
    (take (.insertVersion f.id r.id content)).Founded (fun _ _ => True) s := by
  refine founded_take fun t ht => ⟨?_, fun _ _ _ => trivial⟩
  obtain ⟨g, hg, hi, hgp, -⟩ := ht.files _ _ _ hf
  exact ⟨g, hg, r, ht.revisions hr, hi, rfl, hp.trans hgp.symm⟩

/-! ## Writing -/

theorem allocate_founded (attempts : Nat) (tried : Int) :
    (allocate project user attempts tried).Founded (GivesRevision project) s := by
  induction attempts generalizing s tried with
  | zero =>
    intro r hr
    cases hr
  | succ attempts ih =>
    rw [allocate]
    refine founded_bind readNextNumber_founded fun n t _ hn => ?_
    refine founded_bind (insertRevision_founded hn) fun a u _ ha => ?_
    cases a with
    | ok r => exact fun r' hr' => ha r' (by cases hr'; rfl)
    | error fault =>
      cases fault with
      | taken => exact ih n
      | broken => exact fun r hr => by cases hr
      | untimely changing => exact fun r hr => by cases hr

theorem recordFileOnce_founded :
    (recordFileOnce project path role).Founded (GivesFile project path) s := by
  rw [recordFileOnce]
  refine founded_bind findFile_founded fun a t _ ha => ?_
  cases a with
  | error fault => exact fun f hf => by cases hf
  | ok found? =>
    cases found? with
    | some found => exact updateFile_founded (ha found rfl)
    | none => exact insertFile_founded

theorem recordFile_founded : (recordFile project path role).Founded (GivesFile project path) s := by
  rw [recordFile]
  refine founded_bind recordFileOnce_founded fun a t _ ha => ?_
  cases a with
  | ok f => exact ha
  | error fault =>
    cases fault with
    | taken => exact recordFileOnce_founded
    | broken => exact ha
    | untimely changing => exact ha

theorem writeDraft_founded {draft : FileDraft} (hr : r ∈ s.revisions) (hp : r.project = project) :
    (writeDraft project draft r).Founded (fun _ _ => True) s := by
  rw [writeDraft]
  refine founded_bind recordFile_founded fun a t ht ha => ?_
  cases a with
  | error fault => trivial
  | ok f => exact insertVersion_founded (ha f rfl) (ht.revisions hr) hp _

theorem persist_founded (settings : Settings) {draft : FileDraft} :
    (persist settings project user draft).Founded (fun _ _ => True) s := by
  rw [persist]
  refine founded_bind (allocate_founded _ _) fun a t _ ha => ?_
  cases a with
  | error fault => cases fault <;> trivial
  | ok r =>
    obtain ⟨hr, hp⟩ := ha r rfl
    refine founded_bind (writeDraft_founded hr hp) fun b u _ _ => ?_
    cases b with
    | ok v => trivial
    | error fault => exact founded_bind (founded_take_any fun _ => trivial) fun _ _ _ _ => trivial

end Parts

/-! ## Saves -/

/-- A call that writes a file, from wherever it comes. -/
inductive Saving where
  /-- A call from within. -/
  | call (c : WriteCall)
  /-- A save by whoever owns the project. -/
  | owned (project user destination content : String)
  /-- A save of texts some of which hold halves of characters. -/
  | rough (project user : String) (destination content : Text.Points)

/-- What a call does. -/
def Saving.program (read : Markup.OutlineReader) (settings : Settings) :
    Saving → Program (Except SiteError Saved)
  | call c => c.program read settings
  | owned project user destination content => saveOwned read settings project user destination content
  | rough project user destination content => saveRough read settings project user destination content

theorem saveFor_founded (read : Markup.OutlineReader) (settings : Settings)
    (project user destination content : String) (s : Store) :
    (saveFor read settings project user destination content).Founded (fun _ _ => True) s := by
  rw [saveFor]
  refine founded_bind (founded_take_any fun _ => trivial) fun b t _ _ => ?_
  dsimp only
  split
  · trivial
  · split
    · trivial
    · exact persist_founded settings

theorem retryFor_founded (settings : Settings) (project user : String) (s : Store) :
    (retryFor settings project user).Founded (fun _ _ => True) s := by
  rw [retryFor]
  refine founded_bind (founded_take_any fun _ => trivial) fun b t _ _ => ?_
  cases b with
  | none => trivial
  | some save =>
    refine founded_bind (persist_founded settings) fun a u _ _ => ?_
    cases a with
    | error e => trivial
    | ok saved => exact founded_bind (founded_take_any fun _ => trivial) fun _ _ _ _ => trivial

/-- All saves build on what is there. -/
theorem Saving.program_founded (read : Markup.OutlineReader) (settings : Settings) (saving : Saving)
    (s : Store) :
    (saving.program read settings).Founded (fun _ _ => True) s := by
  cases saving with
  | call c =>
    cases c with
    | save project user destination content => exact saveFor_founded read settings _ _ _ _ s
    | retry project user => exact retryFor_founded settings _ _ s
  | owned project user destination content =>
    show (saveOwned read settings project user destination content).Founded _ s
    rw [saveOwned]
    refine founded_bind (founded_take_any fun _ => trivial) fun latest t _ _ => ?_
    split
    · trivial
    · exact saveFor_founded read settings _ _ _ _ t
  | rough project user destination content =>
    show (saveRough read settings project user destination content).Founded _ s
    rw [saveRough]
    refine founded_bind (founded_take_any fun _ => trivial) fun latest t _ _ => ?_
    split
    · trivial
    · refine founded_bind (founded_take_any fun _ => trivial) fun b u _ _ => ?_
      dsimp only
      split
      · trivial
      · split
        · trivial
        · trivial
        · split
          · trivial
          · trivial
          · refine founded_bind (allocate_founded _ _) fun a v _ _ => ?_
            cases a with
            | ok r => trivial
            | error fault => cases fault <;> trivial

end VersionedSite.Service
