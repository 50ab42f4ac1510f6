import VersionedSite.Number.Basic

/-!
# Clock readings

The clock shows whole milliseconds since the beginning of 1970. Where times are reckoned in seconds, a
reading is the number of double precision that is nearest to it. What is kept for a limited time is up
by one of two ways of reckoning.

* `isUp_exact`, `isDue_exact`: reckoned exactly, asking for one thing and looking through all things
  agree on what is up.
-/

namespace VersionedSite

/-- A reading of the clock in seconds. -/
def clockSeconds (millis : Int) : Number := .real (.ofSigned false millis 1000)

/-- Whether a reading lies in the years from 1 to 9999, for which dates are written. -/
def isDatable (millis : Int) : Bool := -62135596800000 ≤ millis && millis ≤ 253402300799999

/-- How it is reckoned that something has been kept for long enough, by readings of the clock. -/
structure Expiry where
  /-- Whether what has been kept since a time is up when it is asked for. -/
  isUp : (since now : Int) → Bool
  /-- Whether it is up when all that is kept is looked through. -/
  isDue : (since now : Int) → Bool

namespace Expiry

/-- What is kept for a number of milliseconds, reckoned exactly. -/
def exact (life : Int) : Expiry :=
  { isUp := fun since now => life ≤ now - since
    isDue := fun since now => since ≤ now - life }

/-- What is kept for a number of seconds, reckoned in seconds: the age is rounded where one thing is
asked for, and the time since when things are kept where all are looked through. -/
def inSeconds (life : Number) : Expiry :=
  { isUp := fun since now => life.atMost ((clockSeconds now).sub (clockSeconds since))
    isDue := fun since now => (clockSeconds since).atMost ((clockSeconds now).sub life) }

theorem isUp_exact {life since now : Int} :
    (exact life).isUp since now = true ↔ life ≤ now - since := by
  simp [exact]

theorem isDue_exact (life since now : Int) :
    (exact life).isDue since now = (exact life).isUp since now := by
  simp only [exact, decide_eq_decide]
  omega

end Expiry

end VersionedSite
