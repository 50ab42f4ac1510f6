import VersionedSite.Proofs.Service.Interleaving

/-!
# Programs that take turns

Programs beside each other take their steps in any order, and anything may befall any step, while nobody
else does anything (`Crowd.play`). What the turns keep under some condition, a play keeps that meets the
condition all along (`play_induction`). Of a program it is told which steps it may take at all, and what it
may come to (`Program.Every`).

* `turn_cases`: a turn is of a program that is done and changes nothing, or it is the program's next step.
* `createRevision_every`, `writeDraft_every`: the steps that a save takes to write its draft.
-/

namespace VersionedSite.Service

open Program

/-! ## Plays -/

/-- A program takes its next step. -/
structure Turn (ι : Type) where
  /-- Whose turn it is. -/
  who : ι
  terms : Terms
  /-- What befalls the step. -/
  disturbance : Option Disturbance := none

/-- The move that a turn is. -/
def Turn.move {ι : Type} (t : Turn ι) : Move ι := .own t.who t.terms t.disturbance

/-- So many turns of a program in a row that nothing befalls. -/
def spell {ι : Type} (terms : Terms) (who : ι) (count : Nat) : List (Turn ι) :=
  List.replicate count { who, terms }

namespace Crowd

variable {ι α : Type} [DecidableEq ι]

/-- A crowd after a turn. -/
def turn (c : Crowd ι α) (t : Turn ι) : Crowd ι α := c.move t.move

/-- A crowd after some turns. -/
def play (c : Crowd ι α) (turns : List (Turn ι)) : Crowd ι α := c.run (turns.map Turn.move)

/-- Whether a condition on crowds and the turns that come next is met all along. -/
def Along (P : Crowd ι α → Turn ι → Prop) : Crowd ι α → List (Turn ι) → Prop
  | _, [] => True
  | c, t :: turns => P c t ∧ Along P (c.turn t) turns

variable {c : Crowd ι α} {t : Turn ι}

/-- What turns keep under a condition, plays keep that meet it all along. -/
theorem play_induction {I : Crowd ι α → Prop} {P : Crowd ι α → Turn ι → Prop}
    (hturn : ∀ c t, P c t → I c → I (c.turn t)) (hc : I c) {turns : List (Turn ι)}
    (h : Along P c turns) : I (c.play turns) := by
  induction turns generalizing c with
  | nil => exact hc
  | cons t turns ih => exact ih (hturn c t h.1 hc) h.2

theorem along_append {P : Crowd ι α → Turn ι → Prop} {turns turns' : List (Turn ι)} :
    Along P c (turns ++ turns') ↔ Along P c turns ∧ Along P (c.play turns) turns' := by
  induction turns generalizing c with
  | nil => simp [Along, play, run]
  | cons t turns ih => exact (and_congr_right fun _ => ih).trans (and_assoc).symm

/-- A condition that turns meet wherever they come is met all along. -/
theorem along_of_forall {P : Crowd ι α → Turn ι → Prop} {turns : List (Turn ι)}
    (h : ∀ t ∈ turns, ∀ c, P c t) : Along P c turns := by
  induction turns generalizing c with
  | nil => trivial
  | cons t turns ih =>
    exact ⟨h t List.mem_cons_self c, ih fun t' ht' => h t' (List.mem_cons_of_mem t ht')⟩

theorem turn_cases (c : Crowd ι α) (t : Turn ι) :
    ((∃ a, c.programs t.who = .done a) ∧ c.turn t = c) ∨
      ∃ st next, c.programs t.who = .step st next ∧
        (c.turn t).programs =
          Function.update c.programs t.who
            (next (c.service.perform t.terms t.disturbance st).1) ∧
        (c.turn t).service = (c.service.perform t.terms t.disturbance st).2 := by
  obtain hdone | ⟨st, next, hp, hmove⟩ := c.own_cases t.who t.terms t.disturbance
  · exact .inl hdone
  · exact .inr ⟨st, next, hp, congrArg programs hmove, congrArg service hmove⟩

theorem turn_of_done {a : α} (h : c.programs t.who = .done a) : c.turn t = c := by
  obtain ⟨-, hsame⟩ | ⟨st, next, hp, -⟩ := c.turn_cases t
  · exact hsame
  · cases h.symm.trans hp

theorem programs_turn_of_ne {i : ι} (h : i ≠ t.who) : (c.turn t).programs i = c.programs i := by
  obtain ⟨-, hsame⟩ | ⟨st, next, -, hprograms, -⟩ := c.turn_cases t
  · rw [hsame]
  · rw [hprograms, Function.update_of_ne h]

end Crowd

/-! ## Steps of programs -/

namespace Program

variable {α β : Type} {P P' : Step → Prop} {Q Q' : α → Prop} {R : β → Prop}

/-- Whether every step that a program may take is of some kind, and so is whatever it comes to. -/
def Every (P : Step → Prop) (Q : α → Prop) : Program α → Prop
  | done a => Q a
  | step st next => P st ∧ ∀ answer, (next answer).Every P Q

theorem Every.mono {p : Program α} (h : p.Every P Q) (hP : ∀ st, P st → P' st)
    (hQ : ∀ a, Q a → Q' a) : p.Every P' Q' := by
  induction p with
  | done a => exact hQ a h
  | step st next ih => exact ⟨hP st h.1, fun answer => ih answer (h.2 answer)⟩

theorem every_take {st : Step} (h : P st) : (take st).Every P fun _ => True :=
  ⟨h, fun _ => trivial⟩

theorem every_bind {p : Program α} {f : α → Program β} (hp : p.Every P Q)
    (hf : ∀ a, Q a → (f a).Every P R) : (p >>= f).Every P R := by
  change (p.bind f).Every P R
  induction p with
  | done a => exact hf a hp
  | step st next ih => exact ⟨hp.1, fun answer => ih answer (hp.2 answer)⟩

end Program

/-- The steps that allocate a revision. -/
inductive Step.OfAllocation (project user : String) : Step → Prop where
  | readNextNumber : OfAllocation project user (.readNextNumber project)
  | insertRevision (number : Int) : OfAllocation project user (.insertRevision project number user)

/-- The steps that write a draft at a revision. -/
inductive Step.OfWrite (project : String) (draft : FileDraft) : Step → Prop where
  | findFile : OfWrite project draft (.findFile project draft.path)
  | insertFile : OfWrite project draft (.insertFile project draft.path draft.role)
  | updateFile (found : FileRecord) : OfWrite project draft (.updateFile found draft.role)
  | insertVersion (file revision : Int) :
    OfWrite project draft (.insertVersion file revision draft.content)

section Writing

variable {settings : Settings} {project user : String} {draft : FileDraft}

theorem allocate_every (attempts : Nat) (tried : Int) :
    (allocate project user attempts tried).Every (Step.OfAllocation project user) fun _ => True := by
  induction attempts generalizing tried with
  | zero => trivial
  | succ attempts ih =>
    refine ⟨.readNextNumber, fun number => ⟨.insertRevision number, fun answer => ?_⟩⟩
    match answer with
    | .ok r => trivial
    | .error .taken => exact ih number
    | .error .broken => trivial
    | .error (.untimely _) => trivial

theorem createRevision_every :
    (createRevision settings project user).Every (Step.OfAllocation project user) fun _ => True :=
  allocate_every _ _

theorem recordFileOnce_every :
    (recordFileOnce project draft.path draft.role).Every (Step.OfWrite project draft) fun _ => True := by
  refine every_bind (every_take .findFile) fun a _ => ?_
  match a with
  | .error fault => trivial
  | .ok (some found) => exact every_take (.updateFile found)
  | .ok none => exact every_take .insertFile

theorem recordFile_every :
    (recordFile project draft.path draft.role).Every (Step.OfWrite project draft) fun _ => True := by
  refine every_bind recordFileOnce_every fun a _ => ?_
  match a with
  | .error .taken => exact recordFileOnce_every
  | .error .broken => trivial
  | .error (.untimely _) => trivial
  | .ok f => trivial

theorem writeDraft_every (r : Revision) :
    (writeDraft project draft r).Every (Step.OfWrite project draft) fun _ => True := by
  refine every_bind recordFile_every fun a _ => ?_
  cases a with
  | error fault => trivial
  | ok f => exact every_take (.insertVersion f.id r.id)

end Writing

end VersionedSite.Service
