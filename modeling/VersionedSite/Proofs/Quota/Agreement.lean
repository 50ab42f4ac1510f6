import VersionedSite.Proofs.OrderedMap
import VersionedSite.Proofs.Quota.Limiter

/-!
# Windows and counters agree

Windows of one process and counters of a shared table decide alike: whoever calls, however much time
passes in between and whenever ended windows are swept (`decisions_shared`). Windows stop counting at the
limit where counters go on, and know when they end where counters are asked for the time left.

* `Mirrors`: windows and counters that show the same at a time.
* `Mirrors.check`, `Mirrors.wait`, `Mirrors.sweep`: what each kind of event leaves of that.
-/

namespace VersionedSite.Quota

variable {terms : Terms} {limit now : Int} {user other : String} {w : Windows} {c : Counters}

/-! ## Events -/

/-- What happens to a limiter in the course of time. -/
inductive Event where
  /-- A user makes a call. -/
  | call (user : String)
  /-- Milliseconds pass. -/
  | wait (millis : Nat)
  /-- Windows that have ended are swept. -/
  | sweep
  deriving DecidableEq, Repr

/-- The decisions on the calls among some events, oldest first; the events begin at a time. -/
def Limiter.decisions (terms : Terms) : List Event → Int → Limiter → List Decision
  | [], _, _ => []
  | .call user :: events, now, l =>
    let (decision, l) := l.check terms now user
    decision :: decisions terms events now l
  | .wait millis :: events, now, l => decisions terms events (now + millis) l
  | .sweep :: events, now, l => decisions terms events now (l.sweep now).2

/-! ## Windows -/

namespace Windows

theorem open?_of_later {later : Int} (h : now ≤ later) :
    w.open? later user = (w.open? now user).filter fun v => later < v.resetAt := by
  unfold open?
  rw [Option.filter_filter]
  congr 1
  funext v
  rw [Bool.eq_iff_iff, Bool.and_eq_true, decide_eq_true_eq, decide_eq_true_eq]
  omega

/-- A sweep takes away no window that is open. -/
theorem open?_sweep (h : w.keys.Nodup) : (w.sweep now).open? now user = w.open? now user := by
  unfold open? sweep
  cases hf : w.find? user with
  | none => rw [OrderedMap.find?_dropWhere_none hf]
  | some v =>
    by_cases hv : v.resetAt ≤ now
    · have hclosed : (some v).filter (fun v => decide (now < v.resetAt)) = none := by
        simpa using hv
      have hswept : (w.sweep now).find? user = none ∨ (w.sweep now).find? user = some v :=
        OrderedMap.find?_dropWhere_cases h hf
      unfold sweep at hswept
      rcases hswept with hd | hd <;> rw [hd]
      rw [hclosed]
      rfl
    · rw [OrderedMap.find?_dropWhere hf (decide_eq_false hv)]

theorem nodup_keys_check (h : w.keys.Nodup) : (w.check terms now user).2.keys.Nodup := by
  unfold check
  split
  · exact OrderedMap.nodup_keys_insert h _ _
  · split
    · exact h
    · exact OrderedMap.nodup_keys_insert h _ _

end Windows

/-! ## Counters -/

namespace Counters

theorem key_injective : Function.Injective key := fun a b h => by
  have hchars := congrArg String.toList h
  rw [key, key, String.toList_append, String.toList_append] at hchars
  exact String.toList_injective (List.append_cancel_left hchars)

/-- The window that a counter shows to a user at a time. -/
def window? (limit now : Int) (c : Counters) (user : String) : Option Window :=
  match c.values.find? (key user), c.expiries.find? (key user) with
  | some count, some expiry =>
    if now < expiry then some { count := min count limit, resetAt := expiry } else none
  | _, _ => none

/-- Whether a user has no counter, or one that has counted and will expire. -/
def Tidy (c : Counters) (user : String) : Prop :=
  (c.values.find? (key user) = none ∧ c.expiries.find? (key user) = none) ∨
    ∃ count expiry, c.values.find? (key user) = some count ∧
      c.expiries.find? (key user) = some expiry ∧ 1 ≤ count

/-- A counter that shows no window is begun anew. -/
theorem check_of_window?_none (terms : Terms) (ht : c.Tidy user) (h : c.window? limit now user = none) :
    (c.check terms now user).1 = .ofCount terms.limit 1 (now + terms.window) ∧
      (c.check terms now user).2.values.find? (key user) = some 1 ∧
      (c.check terms now user).2.expiries.find? (key user) = some (now + terms.window) := by
  have hpurged : (c.purge now (key user)).values.find? (key user) = none := by
    unfold purge isExpired
    obtain ⟨hv, he⟩ | ⟨count, expiry, hv, he, -⟩ := ht
    · rw [he]
      exact hv
    · have hup : expiry ≤ now := by
        by_contra hlive
        simp [window?, hv, he, Int.not_le.1 hlive] at h
      rw [he]
      simp only [hup, decide_true, if_true]
      exact OrderedMap.find?_erase_self _ _
  simp [check, Check.run, Check.step, increment, hpurged, expire]

/-- A counter that shows a window is counted up, and tells the time left to that window. -/
theorem check_of_live (terms : Terms) (hs : c.silent = false) {count expiry : Int}
    (hv : c.values.find? (key user) = some count) (he : c.expiries.find? (key user) = some expiry)
    (hpos : 1 ≤ count) (hlive : now < expiry) :
    c.check terms now user =
      (.ofCount terms.limit (count + 1) expiry,
        { c with values := c.values.insert (key user) (count + 1) }) := by
  have hexpired : ∀ values, Counters.isExpired { c with values } now (key user) = false := by
    intro values
    simp [isExpired, he, Int.not_le.2 hlive]
  have hpurge : ∀ values,
      Counters.purge { c with values } now (key user) = { c with values } := by
    intro values
    simp [purge, hexpired]
  have hincrement : c.increment now (key user) =
      (count + 1, { c with values := c.values.insert (key user) (count + 1) }) := by
    have hsame : c.purge now (key user) = c := hpurge c.values
    simp [increment, hsame, hv]
  have hleft : Counters.timeLeft { c with values := c.values.insert (key user) (count + 1) } now
      (key user) = (.millis (expiry - now),
        { c with values := c.values.insert (key user) (count + 1) }) := by
    unfold timeLeft
    rw [if_neg (by simp [hs]), hpurge]
    simp [he]
  have hcount : count + 1 ≠ 1 := by omega
  have hnonneg : ¬ expiry - now < 0 := by omega
  have hend : now + (expiry - now) = expiry := by omega
  simp only [check, Check.run, Check.step, hincrement, hcount, hleft, hnonneg, if_false, hend]

theorem find?_check_of_ne (terms : Terms) (now : Int) (c : Counters) (h : other ≠ user) :
    (c.check terms now user).2.values.find? (key other) = c.values.find? (key other) ∧
      (c.check terms now user).2.expiries.find? (key other) = c.expiries.find? (key other) :=
  (c.countsOne_check terms now user).1 _ fun hk => h (key_injective hk)

end Counters

/-! ## Windows and counters -/

/-- Windows and counters that show the same to every user at a time. -/
structure Mirrors (limit now : Int) (w : Windows) (c : Counters) : Prop where
  nodup : w.keys.Nodup
  told : c.silent = false
  tidy : ∀ user, c.Tidy user
  open?_eq : ∀ user, w.open? now user = c.window? limit now user

namespace Mirrors

theorem empty (limit now : Int) : Mirrors limit now .empty {} where
  nodup := List.nodup_nil
  told := rfl
  tidy _ := .inl ⟨rfl, rfl⟩
  open?_eq _ := rfl

theorem wait (h : Mirrors limit now w c) (millis : Nat) : Mirrors limit (now + millis) w c where
  nodup := h.nodup
  told := h.told
  tidy := h.tidy
  open?_eq user := by
    have hlater : now ≤ now + millis := by omega
    rw [Windows.open?_of_later hlater, h.open?_eq]
    unfold Counters.window?
    split
    · split
      · simp [Option.filter_some]
      · rw [if_neg (by omega)]
        rfl
    · rfl

theorem sweep (h : Mirrors limit now w c) : Mirrors limit now (w.sweep now) c where
  nodup := OrderedMap.nodup_keys_filter h.nodup _
  told := h.told
  tidy := h.tidy
  open?_eq user := by
    rw [Windows.open?_sweep h.nodup, h.open?_eq]

/-- What a check leaves of others, once the user's own counter shows the user's own window. -/
theorem of_own (h : Mirrors limit now w c)
    (htidy : (c.check terms now user).2.Tidy user)
    (hopen : (w.check terms now user).2.open? now user =
      (c.check terms now user).2.window? limit now user) :
    Mirrors limit now (w.check terms now user).2 (c.check terms now user).2 where
  nodup := Windows.nodup_keys_check h.nodup
  told := (c.countsOne_check terms now user).2.2.trans h.told
  tidy other := by
    by_cases ho : other = user
    · exact ho ▸ htidy
    · obtain ⟨hv, he⟩ := Counters.find?_check_of_ne terms now c ho
      unfold Counters.Tidy
      rw [hv, he]
      exact h.tidy other
  open?_eq other := by
    by_cases ho : other = user
    · exact ho ▸ hopen
    · obtain ⟨hv, he⟩ := Counters.find?_check_of_ne terms now c ho
      rw [Windows.open?, Windows.find?_check_of_ne ho, ← Windows.open?, h.open?_eq]
      unfold Counters.window?
      rw [hv, he]

/-- A call is decided alike and leaves what shows the same. -/
theorem check (h : Mirrors terms.limit now w c) (hwindow : 0 < terms.window)
    (hlimit : 1 ≤ terms.limit) (user : String) :
    (c.check terms now user).1 = (w.check terms now user).1 ∧
      Mirrors terms.limit now (w.check terms now user).2 (c.check terms now user).2 := by
  have hsame := h.open?_eq user
  cases hopen : w.open? now user with
  | none =>
    -- Nothing is open: a window is opened and a counter is begun.
    rw [hopen] at hsame
    obtain ⟨hdecision, hv, he⟩ :=
      Counters.check_of_window?_none terms (h.tidy user) hsame.symm
    refine ⟨?_, h.of_own (.inr ⟨_, _, hv, he, Int.le_refl 1⟩) ?_⟩
    · rw [hdecision, Windows.check_fresh hopen, Decision.ofCount, if_neg (by omega)]
    · have hlive : now < now + terms.window := by omega
      have hbegun : (w.check terms now user).2 =
          w.insert user { count := 1, resetAt := now + terms.window } := by
        simp [Windows.check, hopen]
      rw [hbegun]
      simp [Windows.open?, Counters.window?, hv, he, hlive, Int.min_eq_left hlimit]
  | some v =>
    rw [hopen] at hsame
    obtain ⟨-, he⟩ | ⟨count, expiry, hv, he, hpos⟩ := h.tidy user
    · simp [Counters.window?, he] at hsame
    · -- What is open counts up to the limit, and its counter beyond.
      have hlive : now < expiry := by
        by_contra hup
        simp [Counters.window?, hv, he, hup] at hsame
      obtain rfl : v = { count := min count terms.limit, resetAt := expiry } := by
        simpa [Counters.window?, hv, he, hlive] using hsame
      have hcounted := Counters.check_of_live terms h.told hv he hpos hlive
      have htidy : (c.check terms now user).2.Tidy user := by
        rw [hcounted]
        exact .inr ⟨_, _, OrderedMap.find?_insert_self _ _ _, he, by omega⟩
      have hshown : (c.check terms now user).2.window? terms.limit now user =
          some { count := min (count + 1) terms.limit, resetAt := expiry } := by
        rw [hcounted]
        simp [Counters.window?, he, hlive]
      by_cases hfull : terms.limit ≤ count
      · have hmin : min count terms.limit = terms.limit := Int.min_eq_right hfull
        have hrefused : w.check terms now user =
            ({ allowed := false, remaining := 0, resetAt := expiry }, w) := by
          simp [Windows.check, hopen, hmin]
        refine ⟨?_, h.of_own htidy ?_⟩
        · rw [hcounted, hrefused, Decision.ofCount, if_pos (by omega)]
        · rw [hshown, hrefused, hopen, hmin, Int.min_eq_right (by omega)]
      · have hmin : min count terms.limit = count := Int.min_eq_left (by omega)
        have hadmitted : w.check terms now user =
            ({ allowed := true, remaining := terms.limit - (count + 1), resetAt := expiry },
              w.insert user { count := count + 1, resetAt := expiry }) := by
          simp [Windows.check, hopen, hmin, hfull]
        refine ⟨?_, h.of_own htidy ?_⟩
        · rw [hcounted, hadmitted, Decision.ofCount, if_neg (by omega)]
        · rw [hshown, hadmitted, Int.min_eq_left (by omega)]
          simp [Windows.open?, hlive]

end Mirrors

/-! ## Limiters -/

namespace Limiter

/-- Limiters that show the same decide alike whatever happens. -/
theorem decisions_eq (hwindow : 0 < terms.window) (hlimit : 1 ≤ terms.limit) (events : List Event)
    (h : Mirrors terms.limit now w c) :
    (shared c).decisions terms events now = (inProcess w).decisions terms events now := by
  induction events generalizing now w c with
  | nil => rfl
  | cons e events ih =>
    cases e with
    | call user =>
      obtain ⟨hdecision, hleft⟩ := h.check hwindow hlimit user
      exact congrArg₂ List.cons hdecision (ih hleft)
    | wait millis => exact ih (h.wait millis)
    | sweep => exact ih h.sweep

/-- A limiter that counts in a shared table and one that counts in one process tell the same to all
callers from their start on, for whatever terms that admit a call in a window of any length. -/
theorem decisions_shared {seconds limit : Int} (hs : 1 ≤ seconds) (hl : 1 ≤ limit) (now : Int)
    (events : List Event) :
    (shared {}).decisions (.ofSeconds seconds limit) events now =
      (inProcess .empty).decisions (.ofSeconds seconds limit) events now := by
  have hwindow : 0 < (Terms.ofSeconds seconds limit).window := by
    show 0 < seconds * 1000
    omega
  exact decisions_eq hwindow hl events (.empty _ _)

/-- A window of one second that admits one call: the second call is refused, the third one begins a window
after a sweep. -/
theorem decisions_shared_sweep :
    let events := [.call "ann", .wait 400, .call "ann", .call "bob", .wait 600, .sweep, .call "ann"]
    (shared {}).decisions (.ofSeconds 1 1) events 0 =
        [⟨true, 0, 1000⟩, ⟨false, 0, 1000⟩, ⟨true, 0, 1400⟩, ⟨true, 0, 2000⟩] ∧
      (inProcess .empty).decisions (.ofSeconds 1 1) events 0 =
        [⟨true, 0, 1000⟩, ⟨false, 0, 1000⟩, ⟨true, 0, 1400⟩, ⟨true, 0, 2000⟩] := by
  have hshared : (shared {}).decisions (.ofSeconds 1 1)
      [.call "ann", .wait 400, .call "ann", .call "bob", .wait 600, .sweep, .call "ann"] 0 =
        [⟨true, 0, 1000⟩, ⟨false, 0, 1000⟩, ⟨true, 0, 1400⟩, ⟨true, 0, 2000⟩] := by
    decide +kernel
  exact ⟨hshared, (decisions_shared (by decide) (by decide) 0 _).symm.trans hshared⟩

end Limiter

end VersionedSite.Quota
