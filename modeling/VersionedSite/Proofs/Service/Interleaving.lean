import Mathlib.Logic.Function.Basic
import VersionedSite.Service.Generation

/-!
# Programs beside each other

Programs that share a state take their steps one at a time and in any order (`Crowd.run`). Anything may
befall a step, and whatever else happens to the service happens between two of them. What may befall steps
and what else may happen is told by a condition on moves (`Move.Obeys`); what can come about under a
condition is what some run comes to that meets it (`Crowd.Leads`).

* `own_cases`: a move of a program that is done changes nothing, any other is the program's next step.
* `programs_run_within`: a program that needs so many steps at most is done after so many turns.
* `within_bind`: programs in sequence need no more steps than both together.
-/

namespace VersionedSite.Service

namespace Program

variable {α β : Type}

/-- A program after its next step, which something may befall, with the state that the step leaves. -/
def advance (terms : Terms) (p : Program α) (s : Service) (disturbance : Option Disturbance := none) :
    Program α × Service :=
  match p with
  | done a => (done a, s)
  | step st next => (next (s.perform terms disturbance st).1, (s.perform terms disturbance st).2)

/-- Whether a program is done after so many steps, whatever they answer. -/
def Within : Nat → Program α → Prop
  | _, done _ => True
  | 0, step .. => False
  | n + 1, step _ next => ∀ answer, (next answer).Within n

theorem within_zero {p : Program α} (h : p.Within 0) : ∃ a, p = done a := by
  cases p with
  | done a => exact ⟨a, rfl⟩
  | step st next => exact h.elim

theorem within_done (n : Nat) (a : α) : (done a).Within n := by
  cases n <;> trivial

theorem within_mono {p : Program α} {m n : Nat} (h : p.Within m) (hle : m ≤ n) : p.Within n := by
  induction p generalizing m n with
  | done a => exact within_done n a
  | step st next ih =>
    cases m with
    | zero => exact h.elim
    | succ m =>
      obtain ⟨n, rfl⟩ : ∃ n', n = n' + 1 := ⟨n - 1, by omega⟩
      exact fun answer => ih answer (h answer) (by omega)

theorem within_take (st : Step) : (take st).Within 1 := fun answer => within_done 0 answer

theorem within_bind {p : Program α} {f : α → Program β} {m n : Nat} (hp : p.Within m)
    (hf : ∀ a, (f a).Within n) : (p >>= f).Within (m + n) := by
  change (p.bind f).Within (m + n)
  induction p generalizing m with
  | done a => exact within_mono (hf a) (by omega)
  | step st next ih =>
    cases m with
    | zero => exact hp.elim
    | succ m =>
      rw [show m + 1 + n = (m + n) + 1 by omega]
      exact fun answer => ih answer (hp answer)

theorem within_advance {p : Program α} {n : Nat} (h : p.Within (n + 1)) (terms : Terms) (s : Service)
    (d : Option Disturbance) : (p.advance terms s d).1.Within n := by
  cases p with
  | done a => exact within_done n a
  | step st next => exact h _

/-- A program that nothing befalls or comes in between of takes one step after another. -/
theorem run_advance (terms : Terms) (p : Program α) (s : Service) :
    p.run terms {} s = (p.advance terms s).1.run terms {} (p.advance terms s).2 := by
  cases p with
  | done a => rfl
  | step st next =>
    show (next (s.perform terms (({} : Faults).next st).1 st).1).run terms (({} : Faults).next st).2
      (s.perform terms (({} : Faults).next st).1 st).2 = _
    rw [Faults.next_calm]
    rfl

end Program

/-- Programs with the state that they share. -/
structure Crowd (ι α : Type) where
  programs : ι → Program α
  service : Service

/-- What happens next. -/
inductive Move (ι : Type) where
  /-- A program takes its next step, which something may befall. -/
  | own (i : ι) (terms : Terms) (disturbance : Option Disturbance := none)
  /-- Something else happens to the service. -/
  | foreign (change : Service → Service)

namespace Move

variable {ι : Type}

/-- Somebody else takes a step. -/
def step (st : Step) (terms : Terms) (disturbance : Option Disturbance) : Move ι :=
  foreign fun s => (s.perform terms disturbance st).2

/-- Whether what befalls a step of a program is of one kind, and whatever else happens is of another. -/
def Obeys (befalls : Option Disturbance → Prop) (happens : Service → Service → Prop) :
    Move ι → Prop
  | own _ _ disturbance => befalls disturbance
  | foreign change => ∀ s, happens s (change s)

/-- Whether nothing befalls the steps of programs, and whatever else happens is somebody else's step of
some kind. -/
def Foreign (kind : Step → Prop) : Move ι → Prop :=
  Obeys (· = none) fun s t => ∃ st terms disturbance,
    kind st ∧ t = (s.perform terms disturbance st).2

theorem foreign_own {kind : Step → Prop} (i : ι) (terms : Terms) : (own i terms).Foreign kind := rfl

theorem foreign_step {kind : Step → Prop} {st : Step} (h : kind st) (terms : Terms)
    (d : Option Disturbance) : (step st terms d : Move ι).Foreign kind :=
  fun _ => ⟨st, terms, d, h, rfl⟩

/-- Whether a move is of a program. -/
def isOf [DecidableEq ι] (i : ι) : Move ι → Bool
  | own j .. => i = j
  | foreign .. => false

end Move

namespace Crowd

variable {ι α : Type} [DecidableEq ι]

/-- A crowd after a move. -/
def move (c : Crowd ι α) : Move ι → Crowd ι α
  | .own i terms disturbance =>
    let (p, service) := (c.programs i).advance terms c.service disturbance
    { programs := Function.update c.programs i p, service }
  | .foreign change => { c with service := change c.service }

/-- A crowd after some moves. -/
def run (c : Crowd ι α) (schedule : List (Move ι)) : Crowd ι α := schedule.foldl move c

theorem own_cases (c : Crowd ι α) (i : ι) (terms : Terms) (d : Option Disturbance) :
    ((∃ a, c.programs i = .done a) ∧ c.move (.own i terms d) = c) ∨
      ∃ st next, c.programs i = .step st next ∧
        c.move (.own i terms d) =
          { programs := Function.update c.programs i (next (c.service.perform terms d st).1)
            service := (c.service.perform terms d st).2 } := by
  cases hp : c.programs i with
  | done a =>
    refine .inl ⟨⟨a, rfl⟩, ?_⟩
    simp only [move, hp, Program.advance]
    rw [← hp, Function.update_eq_self]
  | step st next =>
    refine .inr ⟨st, next, rfl, ?_⟩
    simp only [move, hp, Program.advance]

/-- What moves keep, runs keep. -/
theorem run_induction {P : Crowd ι α → Prop} {allowed : Move ι → Prop}
    (hmove : ∀ c m, allowed m → P c → P (c.move m)) {c : Crowd ι α} (hc : P c)
    {schedule : List (Move ι)} (hs : ∀ m ∈ schedule, allowed m) : P (c.run schedule) := by
  induction schedule generalizing c with
  | nil => exact hc
  | cons m schedule ih =>
    refine ih (hmove c m (hs m List.mem_cons_self) hc) fun m' hm' => hs m' ?_
    exact List.mem_cons_of_mem m hm'

/-- Whether moves of some kind lead from one crowd to another. -/
def Leads (allowed : Move ι → Prop) (c c' : Crowd ι α) : Prop :=
  ∃ schedule : List (Move ι), (∀ m ∈ schedule, allowed m) ∧ c.run schedule = c'

theorem Leads.refl (allowed : Move ι → Prop) (c : Crowd ι α) : Leads allowed c c := ⟨[], by simp, rfl⟩

theorem Leads.head {allowed : Move ι → Prop} {c c' : Crowd ι α} {m : Move ι} (hm : allowed m)
    (h : Leads allowed (c.move m) c') : Leads allowed c c' := by
  obtain ⟨schedule, hs, hc⟩ := h
  exact ⟨m :: schedule, List.forall_mem_cons.2 ⟨hm, hs⟩, hc⟩

/-- What moves of some kind keep is kept wherever they lead. -/
theorem Leads.induction {P : Crowd ι α → Prop} {allowed : Move ι → Prop} {c c' : Crowd ι α}
    (h : Leads allowed c c') (hmove : ∀ c m, allowed m → P c → P (c.move m)) (hc : P c) : P c' := by
  obtain ⟨schedule, hs, rfl⟩ := h
  exact run_induction hmove hc hs

theorem programs_move_of_ne (c : Crowd ι α) {i : ι} {m : Move ι} (h : m.isOf i = false) :
    (c.move m).programs i = c.programs i := by
  cases m with
  | own j terms d =>
    have hne : i ≠ j := by simpa [Move.isOf] using h
    exact Function.update_of_ne hne _ _
  | foreign change => rfl

theorem programs_move_of_isOf (c : Crowd ι α) {i : ι} {m : Move ι} (h : m.isOf i = true) :
    ∃ terms d, (c.move m).programs i = ((c.programs i).advance terms c.service d).1 := by
  cases m with
  | foreign change => cases h
  | own j terms d =>
    obtain rfl : i = j := by simpa [Move.isOf] using h
    exact ⟨terms, d, Function.update_self _ _ _⟩

/-- A program that is done stays so. -/
theorem programs_run_of_done {c : Crowd ι α} {i : ι} {a : α} (h : c.programs i = .done a)
    (schedule : List (Move ι)) : (c.run schedule).programs i = .done a := by
  induction schedule generalizing c with
  | nil => exact h
  | cons m schedule ih =>
    refine ih ?_
    cases hm : m.isOf i with
    | false => rw [programs_move_of_ne c hm, h]
    | true =>
      obtain ⟨terms, d, ht⟩ := programs_move_of_isOf c hm
      rw [ht, h]
      rfl

/-- A program needs as many steps less as it has had turns. -/
theorem programs_run_within (c : Crowd ι α) {i : ι} {n : Nat} (schedule : List (Move ι))
    (h : (c.programs i).Within (n + schedule.countP (Move.isOf i))) :
    ((c.run schedule).programs i).Within n := by
  induction schedule generalizing c with
  | nil => exact h
  | cons m schedule ih =>
    refine ih (c.move m) ?_
    rw [List.countP_cons] at h
    cases hm : m.isOf i with
    | false =>
      rw [programs_move_of_ne c hm]
      simpa [hm] using h
    | true =>
      obtain ⟨terms, d, ht⟩ := programs_move_of_isOf c hm
      have hsucc : (c.programs i).Within (n + schedule.countP (Move.isOf i) + 1) := by
        simpa [hm, Nat.add_assoc] using h
      rw [ht]
      exact Program.within_advance hsucc terms c.service d

/-- A program that has had its turns is done. -/
theorem done_of_turns (c : Crowd ι α) {i : ι} {n : Nat} (hn : (c.programs i).Within n)
    {schedule : List (Move ι)} (h : n ≤ schedule.countP (Move.isOf i)) :
    ∃ a, (c.run schedule).programs i = .done a := by
  refine Program.within_zero (programs_run_within c schedule ?_)
  exact Program.within_mono hn (by omega)

end Crowd

end VersionedSite.Service
