import VersionedSite.Quota.Limiter

/-!
# What a counted call leaves

A call of a user is counted as one and concerns no other user (`Limiter.CountsOne`). Windows of one
process count the calls that they admit, a shared table counts every call (`countsOne_check`,
`check_inProcess_of_refused`).
-/

namespace VersionedSite.Quota

variable {terms : Terms} {now : Int} {user : String}

/-! ## Windows -/

/-- Whether windows are others with one more call of a user counted. -/
def Windows.CountsOne (terms : Terms) (now : Int) (user : String) (w w' : Windows) : Prop :=
  (∀ other, other ≠ user → w'.find? other = w.find? other) ∧
    w'.find? user = some
      (match w.open? now user with
      | none => { count := 1, resetAt := now + terms.window }
      | some v => { v with count := v.count + 1 })

theorem Windows.check_cases (terms : Terms) (now : Int) (user : String) (w : Windows) :
    ((w.check terms now user).1.allowed = true ∧
      w.CountsOne terms now user (w.check terms now user).2) ∨
    ((w.check terms now user).1.allowed = false ∧ (w.check terms now user).2 = w) := by
  have hothers : ∀ other, other ≠ user → (w.check terms now user).2.find? other = w.find? other :=
    fun _ h => find?_check_of_ne h
  unfold CountsOne
  cases hopen : w.open? now user with
  | none =>
    have hcheck : (w.check terms now user).2 =
        w.insert user { count := 1, resetAt := now + terms.window } := by
      simp [check, hopen]
    refine .inl ⟨by rw [check_fresh hopen], hothers, ?_⟩
    rw [hcheck]
    exact OrderedMap.find?_insert_self _ _ _
  | some v =>
    by_cases hfull : v.count ≥ terms.limit
    · exact .inr (by simp [check, hopen, hfull])
    · have hcheck : (w.check terms now user).2 = w.insert user { v with count := v.count + 1 } := by
        simp [check, hopen, hfull]
      refine .inl ⟨by simp [check, hopen, hfull], hothers, ?_⟩
      rw [hcheck]
      exact OrderedMap.find?_insert_self _ _ _

/-! ## Shared counters -/

namespace Counters

/-- Whether a table of counters is another one with one more call of a user counted. -/
def CountsOne (now : Int) (user : String) (c c' : Counters) : Prop :=
  (∀ k, k ≠ key user →
    c'.values.find? k = c.values.find? k ∧ c'.expiries.find? k = c.expiries.find? k) ∧
  c'.values.find? (key user) = some (((c.purge now (key user)).values.find? (key user)).getD 0 + 1) ∧
  c'.silent = c.silent

/-- Whether two tables differ at most in one counter. -/
def SameBut (k : String) (c c' : Counters) : Prop :=
  (∀ j, j ≠ k → c'.values.find? j = c.values.find? j ∧ c'.expiries.find? j = c.expiries.find? j) ∧
    c'.silent = c.silent

variable {k : String} {c c' c'' : Counters}

theorem SameBut.refl (k : String) (c : Counters) : SameBut k c c := ⟨fun _ _ => ⟨rfl, rfl⟩, rfl⟩

theorem SameBut.trans (h : SameBut k c c') (h' : SameBut k c' c'') : SameBut k c c'' :=
  ⟨fun j hj => ⟨(h'.1 j hj).1.trans (h.1 j hj).1, (h'.1 j hj).2.trans (h.1 j hj).2⟩,
    h'.2.trans h.2⟩

theorem sameBut_purge (c : Counters) (now : Int) (k : String) : SameBut k c (c.purge now k) := by
  unfold purge
  split
  · exact ⟨fun j hj => ⟨OrderedMap.find?_erase_of_ne _ hj, OrderedMap.find?_erase_of_ne _ hj⟩, rfl⟩
  · exact .refl _ _

theorem sameBut_increment (c : Counters) (now : Int) (k : String) :
    SameBut k c (c.increment now k).2 :=
  (sameBut_purge c now k).trans ⟨fun _ hj => ⟨OrderedMap.find?_insert_of_ne _ hj _, rfl⟩, rfl⟩

theorem sameBut_expire (c : Counters) (now : Int) (k : String) (time : Int) :
    SameBut k c (c.expire now k time) :=
  ⟨fun _ hj => ⟨rfl, OrderedMap.find?_insert_of_ne _ hj _⟩, rfl⟩

theorem sameBut_timeLeft (c : Counters) (now : Int) (k : String) :
    SameBut k c (c.timeLeft now k).2 := by
  unfold timeLeft
  split
  · exact .refl _ _
  · dsimp only
    split <;> exact sameBut_purge c now k

theorem sameBut_step (c : Counters) (s : Check) : SameBut k c (Check.step terms now k c s).2 := by
  cases s with
  | counting => exact sameBut_increment c now k
  | asking count =>
    have h := sameBut_timeLeft c now k
    simp only [Check.step]
    split <;> rename_i hleft <;> rw [hleft] at h <;> exact h
  | expiring count => exact sameBut_expire c now k terms.window
  | done count left => exact .refl _ _

theorem sameBut_run (n : Nat) (c : Counters) (s : Check) :
    SameBut k c (Check.run terms now k n c s).2 := by
  induction n generalizing c s with
  | zero => exact .refl _ _
  | succ n ih => exact (sameBut_step c s).trans (ih _ _)

/-- A counter that was counted up just now has not expired. -/
theorem isExpired_increment (c : Counters) (now : Int) (k : String) :
    (c.increment now k).2.isExpired now k = false := by
  show (c.purge now k).isExpired now k = false
  unfold purge
  split
  · simp [isExpired, OrderedMap.find?_erase_self]
  · rename_i h
    simpa using h

/-- Behind the counting no command of a check counts. -/
theorem values_run (h : c.isExpired now k = false) (n : Nat) {s : Check} (hs : s ≠ .counting) :
    (Check.run terms now k n c s).2.values = c.values := by
  induction n generalizing s with
  | zero => rfl
  | succ n ih =>
    cases s with
    | counting => exact absurd rfl hs
    | done count left => rw [Check.run_done]
    | expiring count =>
      show (Check.run terms now k n (c.expire now k terms.window) (.done count terms.window)).2.values = _
      rw [Check.run_done]
      rfl
    | asking count =>
      have hsame : (Check.step terms now k c (.asking count)).2 = c := by
        have hleft : (c.timeLeft now k).2 = c := by
          have hpurge : c.purge now k = c := by simp [purge, h]
          unfold timeLeft
          split
          · rfl
          · simp only [hpurge]
            split <;> rfl
        simp only [Check.step]
        split <;> rename_i he <;> rw [he] at hleft <;> exact hleft
      have hnext : (Check.step terms now k c (.asking count)).1 ≠ .counting := by
        rcases Check.step_asking terms now k c count with he | ⟨left, he⟩ <;> simp [he]
      show (Check.run terms now k n (Check.step terms now k c (.asking count)).2
        (Check.step terms now k c (.asking count)).1).2.values = _
      rw [hsame]
      exact ih hnext

theorem countsOne_check (terms : Terms) (now : Int) (user : String) (c : Counters) :
    c.CountsOne now user (c.check terms now user).2 := by
  have hcheck : (c.check terms now user).2 = (Check.run terms now (key user) 3 c .counting).2 := by
    unfold check
    dsimp only
    split <;> rfl
  rw [hcheck]
  obtain ⟨hothers, hsilent⟩ : SameBut (key user) c _ := sameBut_run 3 c .counting
  refine ⟨hothers, ?_, hsilent⟩
  have hnext : (Check.step terms now (key user) c .counting).1 ≠ .counting := by
    simp only [Check.step]
    split <;> simp
  have hvalues : (Check.run terms now (key user) 3 c .counting).2.values =
      (c.increment now (key user)).2.values :=
    values_run (isExpired_increment c now (key user)) 2 hnext
  rw [hvalues]
  exact OrderedMap.find?_insert_self _ _ _

end Counters

/-! ## Limiters -/

namespace Limiter

/-- Whether a limiter is another one with one more call of a user counted. -/
def CountsOne (terms : Terms) (now : Int) (user : String) : Limiter → Limiter → Prop
  | inProcess w, inProcess w' => w.CountsOne terms now user w'
  | shared c, shared c' => c.CountsOne now user c'
  | _, _ => False

/-- A call that is admitted is counted, and so is every call in a shared table. -/
theorem countsOne_check {l : Limiter}
    (h : (l.check terms now user).1.allowed = true ∨ ∃ c, l = shared c) :
    l.CountsOne terms now user (l.check terms now user).2 := by
  cases l with
  | inProcess w =>
    rcases w.check_cases terms now user with ⟨-, hcounts⟩ | ⟨hrefused, -⟩
    · exact hcounts
    · rcases h with h | ⟨c, h⟩
      · cases hrefused.symm.trans h
      · cases h
  | shared c => exact c.countsOne_check terms now user

end Limiter

end VersionedSite.Quota
