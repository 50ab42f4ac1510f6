import VersionedSite.OrderedMap
import VersionedSite.Quota.Decision

/-!
# Counters shared between processes

A table of counters that several processes use by single commands: count up, let expire, ask for the
time left. A check consists of two or three such commands, and commands of other checks may come in
between; so a check is a value that is stepped from one command to the next.

* `Check.run_done`: a check that is done stays as it is.
* `Check.run_three`: three commands are enough for any check.
-/

namespace VersionedSite.Quota

/-- The table of counters. -/
structure Counters where
  /-- The counts. -/
  values : OrderedMap String Int := .empty
  /-- When counts expire. -/
  expiries : OrderedMap String Int := .empty
  /-- Whether the table does not tell the time left. -/
  silent : Bool := false
  deriving DecidableEq, Repr

namespace Counters

/-- Under which key the calls of a user are counted. -/
def key (user : String) : String := "generation_rate:" ++ user

/-- Whether a counter is at or past its expiry. -/
def isExpired (c : Counters) (now : Int) (k : String) : Bool :=
  match c.expiries.find? k with
  | some t => t ≤ now
  | none => false

/-- The table without a counter that has expired. -/
def purge (c : Counters) (now : Int) (k : String) : Counters :=
  if c.isExpired now k then
    { c with values := c.values.erase k, expiries := c.expiries.erase k }
  else c

/-- Count one up, from zero if there is no counter. -/
def increment (c : Counters) (now : Int) (k : String) : Int × Counters :=
  let c := c.purge now k
  let count := (c.values.find? k).getD 0 + 1
  (count, { c with values := c.values.insert k count })

/-- Let a counter expire after some time. -/
def expire (c : Counters) (now : Int) (k : String) (after : Int) : Counters :=
  { c with expiries := c.expiries.insert k (now + after) }

/-- What the table tells about a counter's expiry. -/
inductive TimeLeft where
  | untold
  | noCounter
  | noExpiry
  | millis (n : Int)
  deriving DecidableEq, Repr

/-- Ask for the time left to a counter. -/
def timeLeft (c : Counters) (now : Int) (k : String) : TimeLeft × Counters :=
  if c.silent then (.untold, c)
  else
    let c := c.purge now k
    match c.values.find? k, c.expiries.find? k with
    | none, _ => (.noCounter, c)
    | some _, none => (.noExpiry, c)
    | some _, some t => (.millis (t - now), c)

/-- A counter without its expiry. -/
def persist (c : Counters) (k : String) : Counters :=
  { c with expiries := c.expiries.erase k }

/-- The keys of the table in order. -/
def keys (c : Counters) : List String := c.values.keys.mergeSort fun a b => decide (a ≤ b)

/-! ## Checks -/

/-- How far a check has come. -/
inductive Check where
  /-- Nothing is done; the call is to be counted. -/
  | counting
  /-- The call was counted; the time left is to be asked for. -/
  | asking (count : Int)
  /-- The counter has no expiry that is known; it is to be given one. -/
  | expiring (count : Int)
  /-- The count and the time left are known. -/
  | done (count left : Int)
  deriving DecidableEq, Repr

/-- The next command of a check under key `k` at time `now`. -/
def Check.step (terms : Terms) (now : Int) (k : String) (c : Counters) : Check → Check × Counters
  | counting =>
    let (count, c) := c.increment now k
    (if count = 1 then expiring count else asking count, c)
  | asking count =>
    match c.timeLeft now k with
    | (.millis n, c) => (if n < 0 then expiring count else done count n, c)
    | (_, c) => (expiring count, c)
  | expiring count => (done count terms.window, c.expire now k terms.window)
  | done count left => (done count left, c)

/-- The decision of a check that began at a time, once it is done. -/
def Check.decision? (terms : Terms) (began : Int) : Check → Option Decision
  | done count left => some (.ofCount terms.limit count (began + left))
  | _ => none

/-- Some commands of one check in a row. -/
def Check.run (terms : Terms) (now : Int) (k : String) : Nat → Counters → Check → Check × Counters
  | 0, c, s => (s, c)
  | n + 1, c, s =>
    let (s, c) := s.step terms now k c
    run terms now k n c s

theorem Check.run_done (terms : Terms) (now : Int) (k : String) (n : Nat) (c : Counters)
    (count left : Int) : Check.run terms now k n c (.done count left) = (.done count left, c) := by
  induction n with
  | zero => rfl
  | succ n ih => simp [run, step, ih]

theorem Check.step_asking (terms : Terms) (now : Int) (k : String) (c : Counters) (count : Int) :
    (Check.step terms now k c (.asking count)).1 = .expiring count ∨
      ∃ left, (Check.step terms now k c (.asking count)).1 = .done count left := by
  simp only [step]
  split
  · dsimp only
    split
    · exact .inl rfl
    · exact .inr ⟨_, rfl⟩
  · exact .inl rfl

theorem Check.run_three (terms : Terms) (now : Int) (k : String) (c : Counters) :
    ∃ count left, (Check.run terms now k 3 c .counting).1 = .done count left := by
  have first : ∃ count, (Check.step terms now k c .counting).1 = .expiring count ∨
      (Check.step terms now k c .counting).1 = .asking count := by
    refine ⟨(c.increment now k).1, ?_⟩
    simp only [step]
    split <;> simp
  obtain ⟨count, h | h⟩ := first
  · exact ⟨count, terms.window, by simp only [run, h]; rfl⟩
  · rcases Check.step_asking terms now k (Check.step terms now k c .counting).2 count with h' | ⟨left, h'⟩
    · exact ⟨count, terms.window, by simp only [run, h, h']; rfl⟩
    · exact ⟨count, left, by simp only [run, h, h']; rfl⟩

/-- Count a call of a user and decide on it, without other checks in between. -/
def check (terms : Terms) (now : Int) (user : String) (c : Counters) : Decision × Counters :=
  let (s, c) := Check.run terms now (key user) 3 c .counting
  match s with
  | .done count left => (.ofCount terms.limit count (now + left), c)
  | .counting | .asking _ | .expiring _ => (.ofCount terms.limit 0 now, c)

end Counters

end VersionedSite.Quota
