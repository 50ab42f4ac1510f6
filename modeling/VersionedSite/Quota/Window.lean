import VersionedSite.OrderedMap
import VersionedSite.Quota.Decision

/-!
# Windows kept in one process

One window per user: it opens with the user's first call and counts the calls that it admits. A call
at or past the end of a window opens the next one. Windows that have ended are cleared away from time
to time; that changes no decision.

* `check_fresh`: the first call after a window's end is admitted.
* `find?_check_of_ne`: a check concerns its own user only.
-/

namespace VersionedSite.Quota

/-- The calls that a user has made since the window opened. -/
structure Window where
  /-- The calls admitted so far. -/
  count : Int
  /-- When the window ends. -/
  resetAt : Int
  deriving DecidableEq, Repr

/-- The latest window of each user. -/
abbrev Windows := OrderedMap String Window

namespace Windows

/-- The window of a user, if it has not ended. -/
def open? (w : Windows) (now : Int) (user : String) : Option Window :=
  (w.find? user).filter fun v => now < v.resetAt

/-- Count a call of a user and decide on it. -/
def check (terms : Terms) (now : Int) (user : String) (w : Windows) : Decision × Windows :=
  match w.open? now user with
  | none =>
    let resetAt := now + terms.window
    ({ allowed := true, remaining := terms.limit - 1, resetAt },
      w.insert user { count := 1, resetAt })
  | some v =>
    if v.count ≥ terms.limit then
      ({ allowed := false, remaining := 0, resetAt := v.resetAt }, w)
    else
      ({ allowed := true, remaining := terms.limit - (v.count + 1), resetAt := v.resetAt },
        w.insert user { v with count := v.count + 1 })

/-- The windows that have not ended. -/
def sweep (now : Int) (w : Windows) : Windows := w.dropWhere fun _ v => v.resetAt ≤ now

/-- A sweep after each of some rounds of waiting: the time then, and the windows left. -/
def sweepRounds (pause : Int) : (rounds : Nat) → Int → Windows → Int × Windows
  | 0, now, w => (now, w)
  | rounds + 1, now, w => sweepRounds pause rounds (now + pause) (w.sweep (now + pause))

theorem check_fresh {terms : Terms} {now : Int} {user : String} {w : Windows}
    (h : w.open? now user = none) :
    (w.check terms now user).1 =
      { allowed := true, remaining := terms.limit - 1, resetAt := now + terms.window } := by
  simp [check, h]

theorem find?_check_of_ne {terms : Terms} {now : Int} {user other : String} {w : Windows}
    (h : other ≠ user) : (w.check terms now user).2.find? other = w.find? other := by
  unfold check
  split
  · exact OrderedMap.find?_insert_of_ne _ h _
  · split
    · rfl
    · exact OrderedMap.find?_insert_of_ne _ h _

end Windows

end VersionedSite.Quota
