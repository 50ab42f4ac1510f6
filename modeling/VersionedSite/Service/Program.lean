import VersionedSite.Service.Step

/-!
# Programs of steps

A call to the service is a program: the steps it takes, each chosen by the answers to those before it.
Run on its own, a program takes its steps one after another; run beside others it can be held between
any two of them.

* `run_bind`: programs in sequence run in sequence.
* `next_calm`: nothing befalls the steps of a calm run.
-/

namespace VersionedSite.Service

/-- A computation by steps. -/
inductive Program (α : Type) where
  | done (a : α)
  | step (s : Step) (next : s.Answer → Program α)

/-- What befalls the steps of a run. -/
structure Faults where
  /-- The numbers that the first readings of the next number answer. -/
  outdated : List Int := []
  /-- How many of the first searches for a file find nothing. -/
  overlooked : Nat := 0
  /-- The steps that the store breaks down over. -/
  breaks : Step → Bool := fun _ => false
  /-- Whether the clock shows a time that no row can hold. -/
  untimely : Bool := false

namespace Faults

/-- What befalls steps when the clock shows a time in milliseconds. -/
def atTime (f : Faults) (now : Int) : Faults := { f with untimely := !isDatable now }

/-- What befalls a step, and what is left for those behind it. -/
def next (f : Faults) (s : Step) : Option Disturbance × Faults :=
  if f.breaks s then (some .broken, f)
  else if f.untimely && s.isWrite then (some .untimely, f)
  else
    match s, f.outdated, f.overlooked with
    | .readNextNumber _, number :: rest, _ => (some (.outdated number), { f with outdated := rest })
    | .findFile .., _, count + 1 => (some .overlooked, { f with overlooked := count })
    | _, _, _ => (none, f)

theorem next_calm (s : Step) : ({} : Faults).next s = (none, {}) := by
  cases s <;> rfl

end Faults

namespace Program

variable {α β : Type}

/-- A program followed by another one that depends on its result. -/
def bind : Program α → (α → Program β) → Program β
  | done a, f => f a
  | step s next, f => step s fun answer => (next answer).bind f

instance : Monad Program where
  pure := done
  bind := bind

/-- The program of one step. -/
def take (s : Step) : Program s.Answer := step s done

/-- The result of a program run on its own, with what is left of the faults and the state it leaves. -/
def run (terms : Terms) : Program α → Faults → Service → α × Faults × Service
  | done a, faults, service => (a, faults, service)
  | step s next, faults, service =>
    let (disturbance, faults) := faults.next s
    let (answer, service) := service.perform terms disturbance s
    (next answer).run terms faults service

theorem run_bind (terms : Terms) (p : Program α) (f : α → Program β) (faults : Faults)
    (service : Service) :
    (p.bind f).run terms faults service =
      let (a, faults, service) := p.run terms faults service
      (f a).run terms faults service := by
  induction p generalizing faults service with
  | done a => rfl
  | step s next ih => exact ih _ _ _

end Program

end VersionedSite.Service
