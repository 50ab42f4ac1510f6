import Mathlib
import VersionedSite.Proofs.Service.Interleaving
import VersionedSite.Proofs.Service.Outcome

/-!
# Allocations beside each other

An allocation reads the next number and inserts it. It loses an attempt only when another one inserts
the number in between, so it has lost at most as many attempts as others have won (`Race`). No more
allocations than there are attempts therefore all come to a number, and their numbers follow the
greatest without a gap (`bijOn_numbers_of_allocations`).

* `numbers_perform`: only insertions of revisions change the numbers of a project.
* `Race.move`: what every move keeps.
-/

namespace VersionedSite.Service

open Program Store

/-! ## Steps of an allocation -/

/-- An allocation that has read a number and is about to insert it. -/
def allocateAt (project user : String) (attempts : Nat) (number : Int) :
    Program (Except AllocationFault Revision) := do
  match ← take (.insertRevision project number user) with
  | .ok revision => pure (.ok revision)
  | .error .taken => allocate project user attempts number
  | .error fault => pure (.error (.failed fault))

section Steps

variable {terms : Terms} {s : Service} {project user : String} {attempts : Nat}

theorem advance_allocate (tried : Int) :
    (allocate project user (attempts + 1) tried).advance terms s =
      (allocateAt project user attempts (s.store.greatest project + 1), s) := rfl

theorem advance_allocateAt (number : Int) :
    (allocateAt project user attempts number).advance terms s =
      match s.store.addRevision terms.now project number user with
      | some (r, store) => (.done (.ok r), { s with store })
      | none => (allocate project user attempts number, s) := by
  show (Program.bind (.done (s.inserted _).1) _, (s.inserted _).2) = _
  cases s.store.addRevision terms.now project number user <;> rfl

theorem advance_allocateAt_of_taken {number : Int} (h : number ∈ s.store.numbers project) :
    (allocateAt project user attempts number).advance terms s =
      (allocate project user attempts number, s) := by
  rw [advance_allocateAt, addRevision_eq_none.2 (mem_numbers.1 h)]

theorem advance_allocateAt_of_free {number : Int} (h : number ∉ s.store.numbers project) :
    ∃ r store, s.store.addRevision terms.now project number user = some (r, store) ∧
      (allocateAt project user attempts number).advance terms s =
        (.done (.ok r), { s with store }) := by
  rw [advance_allocateAt]
  cases ha : s.store.addRevision terms.now project number user with
  | none => exact absurd (mem_numbers.2 (addRevision_eq_none.1 ha)) h
  | some row => exact ⟨row.1, row.2, rfl, rfl⟩

theorem allocate_within (attempts : Nat) (tried : Int) :
    (allocate project user attempts tried).Within (2 * attempts) := by
  induction attempts generalizing tried with
  | zero => exact within_done _ _
  | succ attempts ih =>
    rw [show 2 * (attempts + 1) = 1 + (1 + 2 * attempts) by omega, allocate]
    refine within_bind (within_take _) fun number => within_bind (within_take _) fun a => ?_
    rcases a with (_ | _ | _) | r
    · exact ih number
    · exact within_done _ _
    · exact within_done _ _
    · exact within_done _ _

/-- Only an insertion of a revision of a project changes the project's numbers. -/
theorem numbers_perform {st : Step} (h : ∀ number user, st ≠ .insertRevision project number user)
    (disturbance : Option Disturbance) :
    (s.perform terms disturbance st).2.store.numbers project = s.store.numbers project := by
  have hstep := storeStep_perform terms disturbance st s
  generalize (s.perform terms disturbance st).2.store = store at hstep
  cases hstep with
  | nothing | role | version => rfl
  | file ha =>
    obtain ⟨-, -, rfl⟩ := addFile_eq_some.1 ha
    rfl
  | @revision owner user number _ _ _ ha =>
    have hne : owner ≠ project := by
      rintro rfl
      exact h number user rfl
    rw [numbers_addRevision ha, if_neg hne, List.append_nil]

end Steps

/-! ## The race -/

/-- Where an allocation stands that has not won, when the greatest number before was `base` and `won`
others have won. It has some attempts left, of `attempts` in all. -/
inductive Racing (project user : String) (base : Int) (attempts won : Nat) :
    Program (Except AllocationFault Revision) → Prop where
  | reading {left : Nat} {tried : Int} (h : attempts ≤ won + left) :
      Racing _ _ _ _ _ (allocate project user left tried)
  /-- The number was read when `before` others had won. -/
  | numbering {left before : Nat} (hb : before ≤ won) (h : attempts ≤ before + left + 1) :
      Racing _ _ _ _ _ (allocateAt project user left (base + before + 1))

theorem Racing.mono {project user : String} {base : Int} {attempts won won' : Nat}
    {p : Program (Except AllocationFault Revision)} (h : Racing project user base attempts won p)
    (hle : won ≤ won') : Racing project user base attempts won' p := by
  cases h with
  | reading h => exact .reading (by omega)
  | numbering hb h => exact .numbering (by omega) h

/-- While fewer have won than there are attempts, whoever has not won goes on. -/
theorem Racing.ne_done {project user : String} {base : Int} {attempts won : Nat}
    {p : Program (Except AllocationFault Revision)} (h : Racing project user base attempts won p)
    (hlt : won < attempts) (a : Except AllocationFault Revision) : p ≠ .done a := by
  cases h with
  | @reading left tried h =>
    cases left with
    | zero => omega
    | succ left =>
      intro he
      cases he
  | numbering hb h =>
    intro he
    cases he

/-- The number that an allocation has come to. -/
def allocated : Program (Except AllocationFault Revision) → Int
  | .done (.ok r) => r.number
  | _ => 0

variable {ι : Type} [DecidableEq ι] {project : String} {users : ι → String} {base : Int}
  {attempts : Nat} {c : Crowd ι (Except AllocationFault Revision)} {won : Finset ι}

/-- Allocations beside each other, some of which have won. -/
structure Race (project : String) (users : ι → String) (base : Int) (attempts : Nat)
    (c : Crowd ι (Except AllocationFault Revision)) (won : Finset ι) : Prop where
  greatest : c.service.store.greatest project = base + won.card
  taken : ∀ n, base < n → n ≤ base + won.card → n ∈ c.service.store.numbers project
  done : ∀ i ∈ won, ∃ r, c.programs i = .done (.ok r)
  bijOn : Set.BijOn (fun i => allocated (c.programs i)) won (Set.Icc (base + 1) (base + won.card))
  racing : ∀ i ∉ won, Racing project (users i) base attempts won.card (c.programs i)

/-- A program that has not won moves on without winning. -/
theorem Race.update (h : Race project users base attempts c won) {i : ι} (hi : i ∉ won)
    {p : Program (Except AllocationFault Revision)}
    (hp : Racing project (users i) base attempts won.card p) :
    Race project users base attempts { c with programs := Function.update c.programs i p } won where
  greatest := h.greatest
  taken := h.taken
  done := by
    intro j hj
    show ∃ r, Function.update c.programs i p j = _
    rw [Function.update_of_ne (ne_of_mem_of_not_mem hj hi)]
    exact h.done j hj
  bijOn := by
    refine h.bijOn.congr fun j hj => ?_
    show _ = allocated (Function.update c.programs i p j)
    rw [Function.update_of_ne (ne_of_mem_of_not_mem hj hi)]
  racing := by
    show ∀ j ∉ won, Racing _ _ _ _ _ (Function.update c.programs i p j)
    rw [Function.forall_update_iff c.programs fun j p =>
      j ∉ won → Racing project (users j) base attempts won.card p]
    exact ⟨fun _ => hp, fun j _ => h.racing j⟩

/-- Who inserts the number that follows the greatest has won. -/
theorem Race.win (h : Race project users base attempts c won) {i : ι} (hi : i ∉ won)
    {now : Int} {r : Revision} {store : Store}
    (ha : c.service.store.addRevision now project (base + won.card + 1) (users i) = some (r, store)) :
    Race project users base attempts
      { programs := Function.update c.programs i (.done (.ok r)), service := { c.service with store } }
      (insert i won) := by
  have hcard : ((insert i won).card : Int) = won.card + 1 := by
    rw [Finset.card_insert_of_notMem hi]
    exact Int.natCast_succ _
  have hnumber : r.number = base + won.card + 1 := by
    rw [(addRevision_eq_some.1 ha).2.1]
  have hnext : base + won.card + 1 = c.service.store.greatest project + 1 := by rw [h.greatest]
  have hgreatest : store.greatest project = base + ((insert i won).card : Int) := by
    rw [greatest_addRevision ha hnext, if_pos rfl, h.greatest, hcard]
    omega
  have hother : ∀ j ∈ won, Function.update c.programs i (.done (.ok r)) j = c.programs j :=
    fun j hj => Function.update_of_ne (ne_of_mem_of_not_mem hj hi) _ _
  refine ⟨?_, fun n hlt hle => ?_, fun j hj => ?_, ?_, fun j hj => ?_⟩
  · exact hgreatest
  · refine mem_numbers_addRevision ha hnext (fun m hm hle => ?_) hlt (hgreatest ▸ hle)
    exact h.taken m hm (h.greatest ▸ hle)
  · show ∃ r', Function.update c.programs i (.done (.ok r)) j = _
    rcases Finset.mem_insert.1 hj with rfl | hj
    · exact ⟨r, Function.update_self _ _ _⟩
    · rw [hother j hj]
      exact h.done j hj
  · have hicc : Set.Icc (base + 1) (base + ((insert i won).card : Int)) =
        insert (base + won.card + 1) (Set.Icc (base + 1) (base + won.card)) := by
      ext n
      simp only [hcard, Set.mem_Icc, Set.mem_insert_iff]
      omega
    have hself : allocated (Function.update c.programs i (.done (.ok r)) i) = base + won.card + 1 := by
      rw [Function.update_self]
      exact hnumber
    have hwon : Set.BijOn (fun j => allocated (Function.update c.programs i (.done (.ok r)) j)) won
        (Set.Icc (base + 1) (base + won.card)) :=
      h.bijOn.congr fun j hj => congrArg allocated (hother j hj).symm
    rw [hicc, Finset.coe_insert, ← hself]
    refine hwon.insert fun hmem => ?_
    rw [hself, Set.mem_Icc] at hmem
    omega
  · show Racing _ _ _ _ _ (Function.update c.programs i (.done (.ok r)) j)
    rw [Finset.mem_insert, not_or] at hj
    rw [Function.update_of_ne hj.1]
    refine (h.racing j hj.2).mono ?_
    rw [Finset.card_insert_of_notMem hi]
    omega

/-- Whether a step is none of another allocation in the project. -/
def Unrelated (project : String) (st : Step) : Prop :=
  ∀ number user, st ≠ .insertRevision project number user

theorem Race.foreign (h : Race project users base attempts c won) {change : Service → Service}
    (hm : (Move.foreign change : Move ι).Foreign (Unrelated project)) :
    Race project users base attempts (c.move (.foreign change)) won := by
  have hnumbers : (c.move (.foreign change)).service.store.numbers project =
      c.service.store.numbers project := by
    obtain ⟨st, terms, d, hst, hchange⟩ := hm c.service
    show (change c.service).store.numbers project = _
    rw [hchange]
    exact numbers_perform hst d
  refine ⟨?_, fun n hlt hle => ?_, h.done, h.bijOn, h.racing⟩
  · rw [Store.greatest, hnumbers]
    exact h.greatest
  · rw [hnumbers]
    exact h.taken n hlt hle

theorem Race.own (h : Race project users base attempts c won) (i : ι) (terms : Terms) :
    ∃ won', Race project users base attempts (c.move (.own i terms)) won' := by
  by_cases hi : i ∈ won
  · obtain ⟨r, hr⟩ := h.done i hi
    obtain ⟨-, hsame⟩ | ⟨st, next, hp, -⟩ := c.own_cases i terms none
    · exact ⟨won, hsame.symm ▸ h⟩
    · cases hr.symm.trans hp
  · have hracing := h.racing i hi
    generalize hp : c.programs i = p at hracing
    have hmove : c.move (.own i terms) = ⟨Function.update c.programs i (p.advance terms c.service).1,
        (p.advance terms c.service).2⟩ := by
      rw [← hp]
      rfl
    rw [hmove]
    cases hracing with
    | @reading left tried hleft =>
      cases left with
      | zero => exact ⟨won, h.update hi (.reading hleft)⟩
      | succ left =>
        rw [advance_allocate, h.greatest]
        exact ⟨won, h.update hi (.numbering (Nat.le_refl _) (by omega))⟩
    | @numbering left before hb hleft =>
      by_cases he : before = won.card
      · -- Nobody has won since the number was read, so it is still free.
        subst he
        have hfree : base + won.card + 1 ∉ c.service.store.numbers project := by
          intro hmem
          have hle := le_greatest hmem
          rw [h.greatest] at hle
          omega
        obtain ⟨r, store, ha, hadvance⟩ := advance_allocateAt_of_free hfree
        rw [hadvance]
        exact ⟨insert i won, h.win hi ha⟩
      · have htaken : base + before + 1 ∈ c.service.store.numbers project :=
          h.taken _ (by omega) (by omega)
        rw [advance_allocateAt_of_taken htaken]
        exact ⟨won, h.update hi (.reading (by omega))⟩

/-- Allocations in a project that begin beside each other. -/
def allocations (settings : Settings) (service : Service) (project : String) (users : ι → String) :
    Crowd ι (Except AllocationFault Revision) :=
  { programs := fun i => createRevision settings project (users i), service }

/-- The race that any moves lead to, if nobody else allocates in the project. -/
theorem exists_race (settings : Settings) (service : Service) (project : String) (users : ι → String)
    {schedule : List (Move ι)} (hs : ∀ m ∈ schedule, m.Foreign (Unrelated project)) :
    ∃ won, Race project users (service.store.greatest project)
      settings.revisionAllocationAttempts.toNat
      ((allocations settings service project users).run schedule) won := by
  refine Crowd.run_induction (P := fun c => ∃ won, Race project users _ _ c won)
    (fun c m hm h => ?_) ⟨∅, ?_⟩ hs
  · obtain ⟨won, h⟩ := h
    cases m with
    | own i terms d =>
      obtain rfl : d = none := hm
      exact h.own i terms
    | foreign change => exact ⟨won, h.foreign hm⟩
  · refine ⟨?_, fun n hlt hle => ?_, by simp, ?_, fun i _ => .reading (by simp)⟩
    · simp [allocations]
    · simp only [Finset.card_empty, Int.natCast_zero] at hle
      omega
    · simp

/-- No more allocations in a project than there are attempts, beside each other and beside anything else
that does not allocate in the project: none of them gives up, each has come to a number after two steps
for each attempt, and together they have come to the numbers that follow the greatest. -/
theorem bijOn_numbers_of_allocations [Fintype ι] (settings : Settings) (service : Service)
    (project : String) (users : ι → String)
    (hk : (Fintype.card ι : Int) ≤ settings.revisionAllocationAttempts) (schedule : List (Move ι))
    (hs : ∀ m ∈ schedule, m.Foreign (Unrelated project)) :
    let c := (allocations settings service project users).run schedule
    (∀ i e, c.programs i ≠ .done (.error e)) ∧
      (∀ i, 2 * settings.revisionAllocationAttempts.toNat ≤ schedule.countP (Move.isOf i) →
        ∃ r, c.programs i = .done (.ok r)) ∧
      ∀ revision : ι → Revision, (∀ i, c.programs i = .done (.ok (revision i))) →
        Set.BijOn (fun i => (revision i).number) Set.univ
          (Set.Icc (service.store.greatest project + 1)
            (service.store.greatest project + Fintype.card ι)) := by
  intro c
  obtain ⟨won, h⟩ := exists_race settings service project users hs
  have hwon : ∀ i a, c.programs i = .done a → i ∈ won := by
    intro i a ha
    by_contra hi
    have hlt := Finset.card_lt_univ_of_notMem hi
    exact (h.racing i hi).ne_done (by omega) a ha
  have hnone : ∀ i e, c.programs i ≠ .done (.error e) := by
    intro i e he
    obtain ⟨r, hr⟩ := h.done i (hwon i _ he)
    cases he.symm.trans hr
  refine ⟨hnone, fun i hi => ?_, fun revision hr => ?_⟩
  · obtain ⟨a, ha⟩ := (allocations settings service project users).done_of_turns
      (allocate_within _ 0) hi
    cases a with
    | error e => exact absurd ha (hnone i e)
    | ok r => exact ⟨r, ha⟩
  · have hall : won = Finset.univ := Finset.eq_univ_of_forall fun i => hwon i _ (hr i)
    have hbij := h.bijOn
    rw [hall, Finset.coe_univ, Finset.card_univ] at hbij
    refine hbij.congr fun i _ => ?_
    show allocated (c.programs i) = _
    rw [hr i]
    rfl

/-! ## Two allocations that read the same number -/

/-- Both read before either inserts; a third party writes to another project in between. -/
def collision : List (Move (Fin 2)) :=
  let terms : Terms := .ofSettings {} 0
  [.own 0 terms, .own 1 terms, .step (.insertRevision "blog" 1 "eve") terms none, .own 0 terms,
   .own 1 terms, .own 1 terms, .own 1 terms]

def collided : Crowd (Fin 2) (Except AllocationFault Revision) :=
  (allocations {} (start {} { sequence := fun _ => "" }) "shop" fun i =>
    if i = 0 then "ann" else "bob").run collision

def collidedRevision (i : Fin 2) : Revision :=
  if i = 0 then { id := 2, project := "shop", number := 1, user := "ann", createdAt := 0 }
  else { id := 3, project := "shop", number := 2, user := "bob", createdAt := 0 }

theorem bijOn_numbers_of_collision :
    (∀ i, collided.programs i = .done (.ok (collidedRevision i))) ∧
      Set.BijOn (fun i => (collidedRevision i).number) Set.univ (Set.Icc 1 2) := by
  have hdone : ∀ i, collided.programs i = .done (.ok (collidedRevision i)) := by
    rw [Fin.forall_fin_two]
    exact ⟨rfl, rfl⟩
  have hunrelated : ∀ m ∈ collision, m.Foreign (Unrelated "shop") := by
    have hblog : Unrelated "shop" (.insertRevision "blog" 1 "eve") := by simp [Unrelated]
    simp [collision, Move.foreign_own, Move.foreign_step hblog]
  refine ⟨hdone, ?_⟩
  exact (bijOn_numbers_of_allocations {} (start {} { sequence := fun _ => "" }) "shop"
    (fun i : Fin 2 => if i = 0 then "ann" else "bob") (by decide) collision hunrelated).2.2
    collidedRevision hdone

end VersionedSite.Service
