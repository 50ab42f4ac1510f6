/-!
# Decisions on calls

A quota admits a number of calls of each user in each window of time. A decision says whether a call
was admitted, how many more would be, and when the window ends. Times are in milliseconds.

* `retryAfter_pos`: a caller is never told to come back at once.
* `resetAt_le_of_retryAfter`: after the wait that a decision asks for, its window has ended.
-/

namespace VersionedSite.Quota

/-- The terms of a quota. -/
structure Terms where
  /-- The length of a window in milliseconds. -/
  window : Int := 60000
  /-- The number of calls that a window admits. -/
  limit : Int := 10
  deriving DecidableEq, Repr

/-- Terms with a window in seconds. -/
def Terms.ofSeconds (seconds limit : Int) : Terms := { window := seconds * 1000, limit }

/-- The outcome of one call. -/
structure Decision where
  /-- Whether the call is admitted. -/
  allowed : Bool
  /-- How many more calls the window admits. -/
  remaining : Int
  /-- When the window ends. -/
  resetAt : Int
  deriving DecidableEq, Repr

namespace Decision

/-- The outcome of the `count`-th call of a window under a limit. -/
def ofCount (limit count resetAt : Int) : Decision :=
  if count > limit then { allowed := false, remaining := 0, resetAt }
  else { allowed := true, remaining := limit - count, resetAt }

/-- Whole seconds to wait until the window has ended, at least one. -/
def retryAfter (d : Decision) (now : Int) : Int :=
  max 1 (-Int.fdiv (-max 0 (d.resetAt - now)) 1000)

theorem retryAfter_pos (d : Decision) (now : Int) : 1 ≤ d.retryAfter now := by
  unfold retryAfter
  omega

theorem resetAt_le_of_retryAfter (d : Decision) (now : Int) :
    d.resetAt ≤ now + 1000 * d.retryAfter now := by
  unfold retryAfter
  rw [Int.fdiv_eq_ediv_of_nonneg _ (by decide)]
  omega

end Decision

end VersionedSite.Quota
