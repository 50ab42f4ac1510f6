import Mathlib.Data.List.Range
import VersionedSite.Proofs.Quota.Agreement

/-!
# How many calls a window admits

What one user is told in the course of time, sorted by the windows that the calls fell into: the calls of a
window are admitted up to the limit, with one fewer left each time, and refused from then on
(`decisionsTo_of_window`). Others, sweeps and waiting make no difference. The first call of a window is
admitted without a look at the limit, so that a limit of zero lets a call through (`decisionsTo_of_zero`).

* `Windows.used`: how many of a window's calls have been admitted.
* `called_check`: what a call can do to its user's window.
* `used_wait`, `Called.used_eq`: waiting and calls in other windows change nothing of what is used.
-/

namespace VersionedSite.Quota

variable {terms : Terms} {now resetAt : Int} {user other : String} {w : Windows}

/-- What a user is told on the calls among some events, oldest first; the events begin at a time. -/
def Limiter.decisionsTo (terms : Terms) (user : String) : List Event → Int → Limiter → List Decision
  | [], _, _ => []
  | .call caller :: events, now, l =>
    let (decision, l) := l.check terms now caller
    if caller = user then decision :: decisionsTo terms user events now l
    else decisionsTo terms user events now l
  | .wait millis :: events, now, l => decisionsTo terms user events (now + millis) l
  | .sweep :: events, now, l => decisionsTo terms user events now (l.sweep now).2

/-- The decision on the call of a window that comes behind `earlier` others. -/
def verdict (limit resetAt earlier : Int) : Decision :=
  if earlier < max 1 limit then { allowed := true, remaining := limit - (earlier + 1), resetAt }
  else { allowed := false, remaining := 0, resetAt }

theorem verdict_of_lt {limit earlier : Int} (h : earlier < max 1 limit) :
    verdict limit resetAt earlier = { allowed := true, remaining := limit - (earlier + 1), resetAt } :=
  if_pos h

theorem verdict_of_le {limit earlier : Int} (h : max 1 limit ≤ earlier) :
    verdict limit resetAt earlier = { allowed := false, remaining := 0, resetAt } :=
  if_neg (Int.not_lt.2 h)

namespace Windows

/-- How many calls the window of a user that ends at a time has admitted; none if that window is not
open. -/
def used (w : Windows) (now : Int) (user : String) (resetAt : Int) : Int :=
  match w.open? now user with
  | some v => if v.resetAt = resetAt then v.count else 0
  | none => 0

/-- Whether no user stands twice, and a user with an open window has been admitted in it. -/
structure Counting (w : Windows) (now : Int) (user : String) : Prop where
  nodup : w.keys.Nodup
  count_pos : ∀ v, w.open? now user = some v → 1 ≤ v.count

theorem used_of_open {v : Window} (h : w.open? now user = some v) :
    w.used now user resetAt = if v.resetAt = resetAt then v.count else 0 := by
  rw [used, h]

theorem used_of_none (h : w.open? now user = none) : w.used now user resetAt = 0 := by
  rw [used, h]

/-! ## Calls of others, sweeps and waiting -/

theorem open?_check_of_ne (h : user ≠ other) :
    (w.check terms now other).2.open? now user = w.open? now user := by
  rw [open?, find?_check_of_ne h, ← open?]

theorem Counting.check_of_ne (hw : Counting w now user) (h : user ≠ other) :
    Counting (w.check terms now other).2 now user where
  nodup := nodup_keys_check hw.nodup
  count_pos v hv := hw.count_pos v (open?_check_of_ne h ▸ hv)

theorem Counting.sweep (hw : Counting w now user) : Counting (w.sweep now) now user where
  nodup := OrderedMap.nodup_keys_filter hw.nodup _
  count_pos v hv := hw.count_pos v (open?_sweep hw.nodup ▸ hv)

theorem Counting.wait {later : Int} (hw : Counting w now user) (h : now ≤ later) :
    Counting w later user where
  nodup := hw.nodup
  count_pos v hv := by
    rw [open?_of_later h, Option.filter_eq_some_iff] at hv
    exact hw.count_pos v hv.1

/-- A window that is still open has admitted as many calls as before. -/
theorem used_wait {later : Int} (h : now ≤ later) (hopen : later < resetAt) :
    w.used later user resetAt = w.used now user resetAt := by
  unfold used
  rw [open?_of_later h]
  cases w.open? now user with
  | none => rfl
  | some v =>
    by_cases hv : later < v.resetAt
    · simp [Option.filter_some, hv]
    · have hne : v.resetAt ≠ resetAt := by omega
      simp [Option.filter_some, hv, hne]

/-! ## Calls of the user -/

/-- What a call of the user can do: it opens a window, it is refused by a full one, or it is admitted by one
that is open. -/
inductive Called (terms : Terms) (now : Int) (user : String) (w : Windows) : Decision × Windows → Prop where
  | opened {w' : Windows} (h : w.open? now user = none)
      (h' : w'.open? now user = some { count := 1, resetAt := now + terms.window }) :
      Called terms now user w
        ({ allowed := true, remaining := terms.limit - 1, resetAt := now + terms.window }, w')
  | refused {v : Window} (h : w.open? now user = some v) (hfull : terms.limit ≤ v.count) :
      Called terms now user w ({ allowed := false, remaining := 0, resetAt := v.resetAt }, w)
  | admitted {v : Window} {w' : Windows} (h : w.open? now user = some v) (hfree : v.count < terms.limit)
      (h' : w'.open? now user = some { count := v.count + 1, resetAt := v.resetAt }) :
      Called terms now user w
        ({ allowed := true, remaining := terms.limit - (v.count + 1), resetAt := v.resetAt }, w')

theorem lt_of_open? {v : Window} (h : w.open? now user = some v) : now < v.resetAt := by
  simpa using (Option.filter_eq_some_iff.1 h).2

theorem open?_insert_self {v : Window} (h : now < v.resetAt) :
    open? (w.insert user v) now user = some v := by
  simp [open?, h]

theorem called_check (hwindow : 0 < terms.window) : Called terms now user w (w.check terms now user) := by
  cases hopen : w.open? now user with
  | none =>
    have hfresh : w.check terms now user =
        ({ allowed := true, remaining := terms.limit - 1, resetAt := now + terms.window },
          w.insert user { count := 1, resetAt := now + terms.window }) := by
      simp [check, hopen]
    rw [hfresh]
    exact .opened hopen (open?_insert_self (Int.lt_add_of_pos_right now hwindow))
  | some v =>
    by_cases hfull : terms.limit ≤ v.count
    · have hrefused : w.check terms now user =
          ({ allowed := false, remaining := 0, resetAt := v.resetAt }, w) := by
        simp [check, hopen, hfull]
      rw [hrefused]
      exact .refused hopen hfull
    · have hadmitted : w.check terms now user =
          ({ allowed := true, remaining := terms.limit - (v.count + 1), resetAt := v.resetAt },
            w.insert user { count := v.count + 1, resetAt := v.resetAt }) := by
        simp [check, hopen, hfull]
      rw [hadmitted]
      have hlive : now < v.resetAt := lt_of_open? hopen
      exact .admitted hopen (Int.not_le.1 hfull) (open?_insert_self hlive)

variable {d : Decision} {w' : Windows}

theorem Called.lt_resetAt (h : Called terms now user w (d, w')) (hwindow : 0 < terms.window) :
    now < d.resetAt := by
  cases h with
  | opened => exact Int.lt_add_of_pos_right now hwindow
  | refused h => exact lt_of_open? h
  | admitted h => exact lt_of_open? h

theorem Called.count_pos (h : Called terms now user w (d, w')) (hw : Counting w now user) :
    ∀ v, w'.open? now user = some v → 1 ≤ v.count := by
  intro v hv
  cases h with
  | opened _ h' =>
    cases h'.symm.trans hv
    exact Int.le_refl 1
  | refused => exact hw.count_pos v hv
  | admitted h _ h' =>
    cases h'.symm.trans hv
    exact Int.le_add_one (hw.count_pos _ h)

/-- A call is decided by how many calls its window has admitted. -/
theorem Called.decision_eq (h : Called terms now user w (d, w')) (hw : Counting w now user) :
    d = verdict terms.limit d.resetAt (w.used now user d.resetAt) := by
  cases h with
  | opened h =>
    rw [used_of_none h, verdict_of_lt (by omega)]
    rfl
  | refused h hfull =>
    have hpos := hw.count_pos _ h
    rw [used_of_open h, if_pos rfl, verdict_of_le (by omega)]
  | admitted h hfree => rw [used_of_open h, if_pos rfl, verdict_of_lt (by omega)]

/-- Behind a call, its window has admitted one more, as far as later decisions can tell: what is refused
does not count, and more calls are refused all the same. -/
theorem Called.verdict_used (h : Called terms now user w (d, w')) (hw : Counting w now user) (i : Nat) :
    verdict terms.limit d.resetAt (w'.used now user d.resetAt + i) =
      verdict terms.limit d.resetAt (w.used now user d.resetAt + (i + 1 : Nat)) := by
  cases h with
  | opened h h' =>
    rw [used_of_open h', used_of_none h, if_pos rfl]
    congr 1
    push_cast
    omega
  | refused h hfull =>
    have hpos := hw.count_pos _ h
    rw [used_of_open h, if_pos rfl, verdict_of_le (by omega), verdict_of_le (by omega)]
  | admitted h hfree h' =>
    rw [used_of_open h', used_of_open h, if_pos rfl, if_pos rfl]
    congr 1
    push_cast
    omega

theorem Called.used_eq (h : Called terms now user w (d, w')) (hne : resetAt ≠ d.resetAt) :
    w'.used now user resetAt = w.used now user resetAt := by
  cases h with
  | opened h h' => rw [used_of_open h', used_of_none h, if_neg hne.symm]
  | refused => rfl
  | admitted h _ h' => rw [used_of_open h', used_of_open h, if_neg hne.symm, if_neg hne.symm]

end Windows

/-! ## Runs -/

namespace Limiter

open Windows

/-- Every window that a user is told of is still open. -/
theorem lt_resetAt_of_mem (hwindow : 0 < terms.window) {events : List Event} {d : Decision}
    (h : d ∈ (inProcess w).decisionsTo terms user events now) : now < d.resetAt := by
  induction events generalizing now w with
  | nil => cases h
  | cons e events ih =>
    cases e with
    | call caller =>
      rw [decisionsTo] at h
      dsimp only [Limiter.check] at h
      split at h
      · rename_i hcaller
        subst hcaller
        rcases List.mem_cons.1 h with rfl | h
        · have hcalled : Called terms now caller w (w.check terms now caller) := called_check hwindow
          exact hcalled.lt_resetAt hwindow
        · exact ih h
      · exact ih h
    | wait millis =>
      have hlater : now + millis < d.resetAt := ih h
      omega
    | sweep => exact ih h

/-- The decisions of one window, in order, go on from how many calls it has admitted. -/
theorem getElem?_decisionsTo (hwindow : 0 < terms.window) (events : List Event)
    (hw : Counting w now user) {i : Nat} {d : Decision}
    (h : (((inProcess w).decisionsTo terms user events now).filter (·.resetAt = resetAt))[i]? = some d) :
    d = verdict terms.limit resetAt (w.used now user resetAt + i) := by
  induction events generalizing now w i with
  | nil => simp [decisionsTo] at h
  | cons e events ih =>
    cases e with
    | call caller =>
      rw [decisionsTo] at h
      dsimp only [Limiter.check] at h
      split at h
      · rename_i hcaller
        subst hcaller
        have hnodup : (w.check terms now caller).2.keys.Nodup := nodup_keys_check hw.nodup
        have hcalled : Called terms now caller w (w.check terms now caller) := called_check hwindow
        generalize w.check terms now caller = r at h hnodup hcalled
        obtain ⟨told, w'⟩ := r
        have hcounting : Counting w' now caller := ⟨hnodup, hcalled.count_pos hw⟩
        by_cases htold : told.resetAt = resetAt
        · subst htold
          rw [List.filter_cons_of_pos (by simp)] at h
          cases i with
          | zero =>
            rw [List.getElem?_cons_zero, Option.some_inj] at h
            rw [← h, Int.natCast_zero, Int.add_zero]
            exact hcalled.decision_eq hw
          | succ i =>
            rw [List.getElem?_cons_succ] at h
            rw [ih hcounting h, hcalled.verdict_used hw]
        · rw [List.filter_cons_of_neg (by simpa using htold)] at h
          rw [ih hcounting h, hcalled.used_eq (Ne.symm htold)]
      · rename_i hcaller
        have hne : user ≠ caller := Ne.symm hcaller
        rw [ih (hw.check_of_ne hne) h, used, open?_check_of_ne hne, ← used]
    | wait millis =>
      have hle : now ≤ now + millis := by omega
      rw [decisionsTo] at h
      by_cases hopen : now + millis < resetAt
      · rw [ih (hw.wait hle) h, used_wait hle hopen]
      · -- The window has ended: nobody is told of it any more.
        have hmem := List.mem_of_getElem? h
        rw [List.mem_filter, decide_eq_true_eq] at hmem
        exact absurd (hmem.2 ▸ lt_resetAt_of_mem hwindow hmem.1) hopen
    | sweep =>
      have hswept := ih hw.sweep h
      rwa [used, open?_sweep hw.nodup, ← used] at hswept

/-- Whatever happens from the start of a limiter on, the calls of one user that fall into one window are
decided by their number in it: as many as the limit, but at least one, are admitted, with one fewer left
each time, and all later ones are refused. -/
theorem decisionsTo_of_window {seconds : Int} (hs : 1 ≤ seconds) (limit now : Int) (events : List Event)
    (user : String) (resetAt : Int) :
    let told := ((inProcess .empty).decisionsTo (.ofSeconds seconds limit) user events now).filter
      (·.resetAt = resetAt)
    told = (List.range told.length).map fun earlier : Nat =>
      if (earlier : Int) < max 1 limit then
        { allowed := true, remaining := limit - (earlier + 1), resetAt }
      else { allowed := false, remaining := 0, resetAt } := by
  intro told
  have hwindow : 0 < (Terms.ofSeconds seconds limit).window := by
    show 0 < seconds * 1000
    omega
  have hcounting : Counting .empty now user := ⟨List.nodup_nil, fun v hv => by cases hv⟩
  have hused : (Windows.used .empty now user resetAt) = 0 := rfl
  refine List.ext_getElem (by simp) fun i hi _ => ?_
  have hdecision := getElem?_decisionsTo hwindow events hcounting (List.getElem?_eq_getElem hi)
  rw [hused, Int.zero_add] at hdecision
  rw [List.getElem_map, List.getElem_range]
  exact hdecision

/-- A window of one second that admits two calls, with a call in the next window and one of somebody
else. -/
theorem decisionsTo_of_window_second :
    let events := [.call "ann", .call "bob", .wait 400, .call "ann", .sweep, .call "ann", .wait 600,
      .sweep, .call "ann"]
    (1 : Int) ≤ 1 ∧
      ((inProcess .empty).decisionsTo (.ofSeconds 1 2) "ann" events 0).filter (·.resetAt = 1000) =
        [⟨true, 1, 1000⟩, ⟨true, 0, 1000⟩, ⟨false, 0, 1000⟩] := by
  intro events
  refine ⟨Int.le_refl 1, ?_⟩
  rw [decisionsTo_of_window (Int.le_refl 1)]
  decide +kernel

/-- Where no calls are to be admitted, the first one of a window is. -/
theorem decisionsTo_of_zero :
    (inProcess .empty).decisionsTo (.ofSeconds 60 0) "ann" [.call "ann", .call "ann"] 0 =
      [⟨true, -1, 60000⟩, ⟨false, 0, 60000⟩] := by
  decide +kernel

end Limiter

end VersionedSite.Quota
