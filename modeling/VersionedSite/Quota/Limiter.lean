import VersionedSite.Quota.Counter
import VersionedSite.Quota.Window

/-!
# Limiters

A limiter counts calls in one process or in a table that processes share. Both decide alike; only the
windows of one process need sweeping.
-/

namespace VersionedSite.Quota

/-- What a limiter counts in. -/
inductive Limiter where
  | inProcess (windows : Windows)
  | shared (counters : Counters)
  deriving Repr

namespace Limiter

/-- Count a call of a user and decide on it. -/
def check (terms : Terms) (now : Int) (user : String) : Limiter → Decision × Limiter
  | inProcess w => let (d, w) := w.check terms now user; (d, inProcess w)
  | shared c => let (d, c) := c.check terms now user; (d, shared c)

/-- Clear away what has ended, and tell how many windows that were. -/
def sweep (now : Int) : Limiter → Nat × Limiter
  | inProcess w => (w.size - (w.sweep now).size, inProcess (w.sweep now))
  | shared c => (0, shared c)

/-- Sweep after each of some rounds of waiting: the rounds that took place, the time then, and the
limiter. A shared table needs no rounds. -/
def sweepRounds (pause : Int) (rounds : Nat) (now : Int) : Limiter → Nat × Int × Limiter
  | inProcess w => let (now, w) := w.sweepRounds pause rounds now; (rounds, now, inProcess w)
  | shared c => (0, now, shared c)

end Limiter

end VersionedSite.Quota
