import VersionedSite.Proofs.Quota.Admission

/-!
# What one user is told

What the windows of one process tell a user hangs on the user's own calls and on when they are made, and on
nothing else: it is the same where all sweeps and all calls of others are left out and only their time passes
(`told_alone`). So a user who is refused knows how long to wait, whatever others do in the meantime: a call
behind the wait that the refusal asks for is told what the first call of all would be, and one a second
earlier is refused like the one before (`check_of_retryAfter`).

* `Windows.Alike`: windows in which a user finds the same at a time.
* `Alike.call`: a call of the user is decided alike and leaves what is alike.
* `Alike.of_other`, `Alike.sweep`, `Alike.sweepRounds`, `Alike.wait`: nothing else matters to the user.
-/

namespace VersionedSite.Quota

variable {terms : Terms} {now : Int} {user other : String} {w w' : Windows}

/-! ## Windows in which a user finds the same -/

namespace Windows

/-- Whether a user finds the same in two tables of windows at a time; in the first one, which may be swept,
no user stands twice. -/
structure Alike (user : String) (now : Int) (w w' : Windows) : Prop where
  nodup : w.keys.Nodup
  open?_eq : w.open? now user = w'.open? now user

theorem open?_insert (w : Windows) (now : Int) (user : String) (v : Window) :
    open? (w.insert user v) now user = (some v).filter fun v => now < v.resetAt := by
  rw [open?, OrderedMap.find?_insert_self]

namespace Alike

theorem refl (h : w.keys.Nodup) : Alike user now w w := ⟨h, rfl⟩

theorem call (h : Alike user now w w') (terms : Terms) :
    (w.check terms now user).1 = (w'.check terms now user).1 ∧
      Alike user now (w.check terms now user).2 (w'.check terms now user).2 := by
  have hnodup : (w.check terms now user).2.keys.Nodup := nodup_keys_check h.nodup
  have hopen := h.open?_eq
  refine ⟨?_, hnodup, ?_⟩
  · unfold check
    rw [hopen]
    split
    · rfl
    · split <;> rfl
  · unfold check
    rw [hopen]
    split
    · rw [open?_insert, open?_insert]
    · split
      · exact hopen
      · rw [open?_insert, open?_insert]

theorem of_other (h : Alike user now w w') (terms : Terms) (hne : user ≠ other) :
    Alike user now (w.check terms now other).2 w' where
  nodup := nodup_keys_check h.nodup
  open?_eq := (open?_check_of_ne hne).trans h.open?_eq

theorem sweep (h : Alike user now w w') : Alike user now (w.sweep now) w' where
  nodup := OrderedMap.nodup_keys_filter h.nodup _
  open?_eq := (open?_sweep h.nodup).trans h.open?_eq

theorem wait {later : Int} (h : Alike user now w w') (hle : now ≤ later) : Alike user later w w' where
  nodup := h.nodup
  open?_eq := by rw [open?_of_later hle, open?_of_later hle, h.open?_eq]

/-- Some rounds of the sweeper take their time and change nothing for a user. -/
theorem sweepRounds (h : Alike user now w w') (pause rounds : Nat) :
    (w.sweepRounds pause rounds now).1 = now + (rounds * pause : Nat) ∧
      Alike user (now + (rounds * pause : Nat)) (w.sweepRounds pause rounds now).2 w' := by
  induction rounds generalizing now w with
  | zero =>
    rw [Nat.zero_mul, Int.natCast_zero, Int.add_zero]
    exact ⟨rfl, h⟩
  | succ rounds ih =>
    have hround : Alike user (now + pause) (w.sweep (now + pause)) w' := (h.wait (by omega)).sweep
    have htime : now + ((rounds + 1) * pause : Nat) = now + pause + (rounds * pause : Nat) := by
      rw [Nat.succ_mul]
      push_cast
      omega
    rw [htime]
    exact ih hround

end Alike

end Windows

/-! ## Steps -/

/-- A step of a limiter that has a sweeper of its own. -/
inductive Step where
  | event (e : Event)
  /-- The sweeper pauses and sweeps for some rounds. -/
  | sweeper (pause rounds : Nat)
  deriving DecidableEq, Repr

/-- What is left of a step without sweeps and without the calls of others: time passes as before. -/
def Step.alone? (user : String) : Step → Option Step
  | event (.call caller) => if caller = user then some (event (.call caller)) else none
  | event (.wait millis) => some (event (.wait millis))
  | event .sweep => none
  | sweeper pause rounds => some (event (.wait (rounds * pause)))

namespace Limiter

open Windows

/-- The time and the limiter behind a step. -/
def next (terms : Terms) : Int × Limiter → Step → Int × Limiter
  | (now, l), .event (.call caller) => (now, (l.check terms now caller).2)
  | (now, l), .event (.wait millis) => (now + millis, l)
  | (now, l), .event .sweep => (now, (l.sweep now).2)
  | (now, l), .sweeper pause rounds => (l.sweepRounds pause rounds now).2

/-- The time and the limiter behind some steps. -/
def behind (terms : Terms) (steps : List Step) (s : Int × Limiter) : Int × Limiter :=
  steps.foldl (next terms) s

/-- What a user is told by a step. -/
def told? (terms : Terms) (user : String) : Int × Limiter → Step → Option Decision
  | (now, l), .event (.call caller) =>
    if caller = user then some (l.check terms now caller).1 else none
  | _, _ => none

/-- What a user is told by some steps, oldest first. -/
def told (terms : Terms) (user : String) : List Step → Int × Limiter → List Decision
  | [], _ => []
  | step :: steps, s => (told? terms user s step).toList ++ told terms user steps (next terms s step)

/-- A step tells a user the same as what is left of it, and leaves what is alike at the same time; a step
that is no call of the user leaves nothing but its time. -/
theorem next_of_alike (h : Alike user now w w') (terms : Terms) (step : Step) :
    ∃ later v v', now ≤ later ∧ Alike user later v v' ∧ (step ≠ .event (.call user) → v' = w') ∧
      told? terms user (now, inProcess w) step =
        (step.alone? user).bind (told? terms user (now, inProcess w')) ∧
      next terms (now, inProcess w) step = (later, inProcess v) ∧
      behind terms (step.alone? user).toList (now, inProcess w') = (later, inProcess v') := by
  match step with
  | .event (.call caller) =>
    by_cases hcaller : caller = user
    · subst hcaller
      obtain ⟨hdecision, hleft⟩ := h.call terms
      refine ⟨now, _, _, Int.le_refl now, hleft, fun hne => absurd rfl hne, ?_, rfl, ?_⟩
      · simp only [Step.alone?, told?, Limiter.check, if_true, Option.bind_some, hdecision]
      · rw [Step.alone?, if_pos rfl]
        rfl
    · refine ⟨now, _, w', Int.le_refl now, h.of_other terms (Ne.symm hcaller), fun _ => rfl, ?_, rfl, ?_⟩
      · rw [told?, Step.alone?, if_neg hcaller, if_neg hcaller, Option.bind_none]
      · rw [Step.alone?, if_neg hcaller]
        rfl
  | .event (.wait millis) =>
    have hle : now ≤ now + millis := by omega
    exact ⟨now + millis, w, w', hle, h.wait hle, fun _ => rfl, rfl, rfl, rfl⟩
  | .event .sweep => exact ⟨now, w.sweep now, w', Int.le_refl now, h.sweep, fun _ => rfl, rfl, rfl, rfl⟩
  | .sweeper pause rounds =>
    obtain ⟨htime, hleft⟩ := h.sweepRounds pause rounds
    have hle : now ≤ now + (rounds * pause : Nat) := by omega
    exact ⟨_, _, w', hle, hleft, fun _ => rfl, rfl, Prod.ext htime rfl, rfl⟩

/-- What a user is told by some steps hangs on what the user finds at first, and on the user's own calls and
the time between them. -/
theorem told_of_alike (h : Alike user now w w') (steps : List Step) :
    told terms user steps (now, inProcess w) =
      told terms user (steps.filterMap (Step.alone? user)) (now, inProcess w') := by
  induction steps generalizing now w w' with
  | nil => rfl
  | cons step steps ih =>
    obtain ⟨later, v, v', -, hleft, -, htold, hnext, hbehind⟩ := next_of_alike h terms step
    rw [told, htold, hnext, ih hleft, ← hbehind]
    cases halone : step.alone? user with
    | none =>
      rw [List.filterMap_cons_none halone]
      rfl
    | some kept =>
      rw [List.filterMap_cons_some halone]
      rfl

/-- What a user is told from the start of a limiter on is the same where all sweeps and all calls of others
are left out. -/
theorem told_alone (seconds limit start : Int) (user : String) (steps : List Step) :
    told (.ofSeconds seconds limit) user steps (start, inProcess .empty) =
      told (.ofSeconds seconds limit) user (steps.filterMap (Step.alone? user))
        (start, inProcess .empty) := by
  have hempty : Alike user start .empty .empty := .refl List.nodup_nil
  exact told_of_alike hempty steps

/-! ## Waiting -/

/-- Behind steps that are no calls of the user, the user finds what was there before and has not ended. -/
theorem behind_of_alike (h : Alike user now w w') (terms : Terms) {steps : List Step}
    (hsteps : ∀ step ∈ steps, step ≠ .event (.call user)) :
    ∃ later v, behind terms steps (now, inProcess w) = (later, inProcess v) ∧ now ≤ later ∧
      Alike user later v w' := by
  induction steps generalizing now w with
  | nil => exact ⟨now, w, rfl, Int.le_refl now, h⟩
  | cons step steps ih =>
    rw [List.forall_mem_cons] at hsteps
    obtain ⟨later, v, v', hle, hleft, hsame, -, hnext, -⟩ := next_of_alike h terms step
    rw [hsame hsteps.1] at hleft
    obtain ⟨last, u, hbehind, hle', hlast⟩ := ih hleft hsteps.2
    refine ⟨last, u, ?_, Int.le_trans hle hle', hlast⟩
    rw [behind, List.foldl_cons, hnext]
    exact hbehind

/-- A limiter of one process stays one, and no user stands twice in its windows. -/
theorem exists_behind (terms : Terms) (steps : List Step) (hw : w.keys.Nodup) :
    ∃ later v, behind terms steps (now, inProcess w) = (later, inProcess v) ∧ v.keys.Nodup := by
  induction steps generalizing now w with
  | nil => exact ⟨now, w, rfl, hw⟩
  | cons step steps ih =>
    -- Any user will do: what counts is that the limiter stays one of this kind.
    obtain ⟨later, v, _, -, hleft, -, -, hnext, -⟩ := next_of_alike (.refl hw : Alike "" now w w) terms step
    rw [behind, List.foldl_cons, hnext]
    exact ih hleft.nodup

end Limiter

namespace Windows

/-- A call that is refused has found a window that is full, and leaves it. -/
theorem check_of_refused (h : (w.check terms now user).1.allowed = false) :
    ∃ v, w.open? now user = some v ∧ terms.limit ≤ v.count ∧ now < v.resetAt ∧
      w.check terms now user = ({ allowed := false, remaining := 0, resetAt := v.resetAt }, w) := by
  cases hopen : w.open? now user with
  | none =>
    rw [check_fresh hopen] at h
    cases h
  | some v =>
    have hcheck := h
    unfold check at hcheck ⊢
    rw [hopen] at hcheck ⊢
    dsimp only at hcheck ⊢
    split at hcheck
    · rename_i hfull
      rw [if_pos hfull]
      exact ⟨v, rfl, hfull, lt_of_open? hopen, rfl⟩
    · cases hcheck

theorem check_of_full {v : Window} (h : w.open? now user = some v) (hfull : terms.limit ≤ v.count) :
    w.check terms now user = ({ allowed := false, remaining := 0, resetAt := v.resetAt }, w) := by
  simp [check, h, hfull]

end Windows

namespace Decision

/-- A second less than a refusal asks for is too early. -/
theorem lt_resetAt_of_retryAfter {d : Decision} (h : now < d.resetAt) :
    now + 1000 * (d.retryAfter now - 1) < d.resetAt := by
  unfold retryAfter
  rw [Int.fdiv_eq_ediv_of_nonneg _ (by decide)]
  omega

end Decision

namespace Limiter

open Windows

/-- A user is refused, then whatever happens but calls of the user. When as many seconds have passed as the
refusal asks for, a call is admitted as the first of a window, and the user is told all that a new limiter
would tell; when one second less has passed, it is refused until the same time. -/
theorem check_of_retryAfter (seconds limit start : Int) (earlier between : List Step) (user : String) :
    let terms := Terms.ofSeconds seconds limit
    let reached := behind terms earlier (start, inProcess .empty)
    let refused := reached.2.check terms reached.1 user
    let left := behind terms between (reached.1, refused.2)
    refused.1.allowed = false → (∀ step ∈ between, step ≠ .event (.call user)) →
      (left.1 = reached.1 + 1000 * refused.1.retryAfter reached.1 →
        (left.2.check terms left.1 user).1 =
            { allowed := true, remaining := limit - 1, resetAt := left.1 + seconds * 1000 } ∧
          ∀ steps, told terms user steps left = told terms user steps (left.1, inProcess .empty)) ∧
      (left.1 = reached.1 + 1000 * (refused.1.retryAfter reached.1 - 1) →
        (left.2.check terms left.1 user).1 =
          { allowed := false, remaining := 0, resetAt := refused.1.resetAt }) := by
  intro terms
  have hempty : (OrderedMap.empty : Windows).keys.Nodup := List.nodup_nil
  obtain ⟨now, w, hreached, hw⟩ := exists_behind terms earlier hempty
  rw [hreached]
  dsimp only [Limiter.check]
  intro hrefused hbetween
  obtain ⟨v, hopen, hfull, hlive, hcheck⟩ := check_of_refused hrefused
  rw [hcheck]
  dsimp only
  obtain ⟨later, u, hbehind, hle, halike⟩ := behind_of_alike (.refl hw : Alike user now w w) terms hbetween
  rw [hbehind]
  dsimp only [Limiter.check]
  have hshown : u.open? later user = (some v).filter fun v => later < v.resetAt := by
    rw [halike.open?_eq, open?_of_later hle, hopen]
  refine ⟨fun hlater => ?_, fun hlater => ?_⟩
  · have hended : ¬ later < v.resetAt := by
      rw [hlater, Int.not_lt]
      exact Decision.resetAt_le_of_retryAfter _ now
    have hnone : u.open? later user = none := by
      rw [hshown, Option.filter_some, if_neg (by simpa using hended)]
    refine ⟨check_fresh hnone, fun steps => ?_⟩
    have hfresh : Alike user later u .empty := ⟨halike.nodup, hnone⟩
    exact (told_of_alike hfresh steps).trans (told_of_alike (.refl hempty) steps).symm
  · have hlive' : later < v.resetAt := by
      rw [hlater]
      exact Decision.lt_resetAt_of_retryAfter hlive
    rw [Option.filter_some, if_pos (by simpa using hlive')] at hshown
    rw [check_of_full hshown hfull]

/-- A second call half a second into a window of three seconds is refused for three seconds: behind two of
them it still is, behind the third one it is not. -/
theorem check_of_retryAfter_third :
    let terms := Terms.ofSeconds 3 1
    let refused := behind terms [.event (.call "ann"), .event (.wait 500), .event (.call "ann")]
      (0, inProcess .empty)
    let early := behind terms [.event (.wait 1000), .event (.call "bob"), .sweeper 500 2] refused
    let late := behind terms [.event (.call "bob"), .event (.wait 2000), .sweeper 1000 1] refused
    (early.2.check terms early.1 "ann").1 = { allowed := false, remaining := 0, resetAt := 3000 } ∧
      (late.2.check terms late.1 "ann").1 = { allowed := true, remaining := 0, resetAt := 6500 } := by
  intro terms refused early late
  have hcheck : ∀ between : List Step, (∀ step ∈ between, step ≠ .event (.call "ann")) → _ :=
    fun between => check_of_retryAfter 3 1 0 [.event (.call "ann"), .event (.wait 500)] between "ann"
      (by decide +kernel)
  exact ⟨(hcheck _ (by decide)).2 (by decide +kernel), ((hcheck _ (by decide)).1 (by decide +kernel)).1⟩

end Limiter

end VersionedSite.Quota
