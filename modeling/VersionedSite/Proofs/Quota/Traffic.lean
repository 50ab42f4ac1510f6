import Mathlib.Data.Finset.Card
import Mathlib.Data.Int.Interval
import Mathlib.Data.List.Induction
import Mathlib.Logic.Function.Basic
import VersionedSite.Proofs.Quota.Limiter

/-!
# Traffic on shared counters

Any number of checks, of whatever users and in whatever processes, give their commands to one table in any
order, while time passes and counters may lose their expiry from outside. A lifetime of a counter reaches
from a count that finds none to the next count that finds none: of the checks counted in one lifetime no
more than the limit are admitted, and where no check of a counter is in flight, a live counter expires within
one window, if behind every loss of its expiry a check of it was completed (`admitted_and_expiry_of_run`).

* `Numbered`: the checks counted in one lifetime have different counts. Every command keeps that
  (`Numbered.command`).
* `Guarded`: a counter without expiry has a check that is about to give it one. Every command keeps that
  (`Guarded.command`), a completed check brings it about (`guarded_of_completes`), only a loss breaks it.
-/

namespace VersionedSite.Quota

namespace Counters

variable {terms : Terms} {now : Int} {k : String} {c : Counters}

/-! ## Commands -/

/-- The count that a check was told, once it is counted. -/
def Check.count? : Check → Option Int
  | counting => none
  | asking count | expiring count | done count _ => some count

/-- Whether a check has come to its end. -/
def Check.IsDone : Check → Prop
  | done _ _ => True
  | counting | asking _ | expiring _ => False

/-- Whether a check has given its first command and not its last. -/
def Check.InFlight : Check → Prop
  | asking _ | expiring _ => True
  | counting | done _ _ => False

instance : DecidablePred Check.IsDone
  | .done _ _ => isTrue trivial
  | .counting | .asking _ | .expiring _ => isFalse id

instance : DecidablePred Check.InFlight
  | .asking _ | .expiring _ => isTrue trivial
  | .counting | .done _ _ => isFalse id

/-- Whether the call of a check is admitted. -/
def Check.Admits (terms : Terms) (s : Check) : Prop :=
  ∃ began decision, s.decision? terms began = some decision ∧ decision.allowed = true

theorem Check.le_limit_of_admits {s : Check} (h : s.Admits terms) :
    ∃ count, s.count? = some count ∧ count ≤ terms.limit := by
  obtain ⟨began, decision, hd, hallowed⟩ := h
  cases s with
  | done count left =>
    refine ⟨count, rfl, ?_⟩
    by_contra hover
    rw [decision?, Option.some.injEq] at hd
    simp [← hd, Decision.ofCount, Int.not_le.1 hover] at hallowed
  | counting | asking _ | expiring _ => cases hd

/-- Whether a count at a time finds no counter. -/
def Begins (c : Counters) (now : Int) (k : String) : Prop :=
  (c.purge now k).values.find? k = none

instance : Decidable (c.Begins now k) := inferInstanceAs (Decidable (_ = _))

theorem purge_cases (c : Counters) (now : Int) (k : String) :
    c.purge now k = c ∨
      (c.purge now k).values.find? k = none ∧ (c.purge now k).expiries.find? k = none := by
  unfold purge
  split
  · exact .inr ⟨OrderedMap.find?_erase_self _ _, OrderedMap.find?_erase_self _ _⟩
  · exact .inl rfl

theorem timeLeft_cases (c : Counters) (now : Int) (k : String) :
    (c.timeLeft now k).2 = c ∨ (c.timeLeft now k).2 = c.purge now k := by
  unfold timeLeft
  split
  · exact .inl rfl
  · dsimp only
    split <;> exact .inr rfl

/-- Only a counter with an expiry tells the time left to it. -/
theorem expiry_of_timeLeft {n : Int} (h : (c.timeLeft now k).1 = .millis n) :
    (c.timeLeft now k).2.expiries.find? k ≠ none := by
  unfold timeLeft at h ⊢
  split at h
  · cases h
  · rename_i hs
    rw [if_neg hs]
    dsimp only at h ⊢
    split at h
    · cases h
    · cases h
    · rename_i he
      simp [he]

/-- A count begins a lifetime with one, or counts up what it finds. -/
theorem increment_cases (c : Counters) (now : Int) (k : String) :
    (c.Begins now k ∧ (c.increment now k).1 = 1) ∨
      ∃ v, c.purge now k = c ∧ c.values.find? k = some v ∧ ¬c.Begins now k ∧
        (c.increment now k).1 = v + 1 := by
  unfold Begins increment
  cases hv : (c.purge now k).values.find? k with
  | none => exact .inl (by simp [hv])
  | some v =>
    rcases c.purge_cases now k with hsame | ⟨hnone, -⟩
    · exact .inr ⟨v, hsame, hsame ▸ hv, by simp, by simp [hv]⟩
    · cases hv.symm.trans hnone

theorem find?_values_increment (c : Counters) (now : Int) (k : String) :
    (c.increment now k).2.values.find? k = some (c.increment now k).1 :=
  OrderedMap.find?_insert_self _ _ _

section

variable {s : Check} {j : String}

theorem count?_step (h : s ≠ .counting) : (Check.step terms now k c s).1.count? = s.count? := by
  cases s with
  | counting => exact absurd rfl h
  | asking count =>
    rcases Check.step_asking terms now k c count with he | ⟨left, he⟩ <;> rw [he] <;> rfl
  | expiring _ | done _ _ => rfl

theorem snd_step_asking (count : Int) :
    (Check.step terms now k c (.asking count)).2 = (c.timeLeft now k).2 := by
  simp only [Check.step]
  split <;> rename_i he <;> rw [he]

/-- Behind the counting a counter stays as it is or goes away. -/
theorem values_of_step (h : s ≠ .counting) {v : Int}
    (hv : (Check.step terms now k c s).2.values.find? j = some v) : c.values.find? j = some v := by
  cases s with
  | counting => exact absurd rfl h
  | asking count =>
    rw [snd_step_asking] at hv
    by_cases hj : j = k
    · subst hj
      rcases c.timeLeft_cases now j with hsame | hpurged
      · rwa [hsame] at hv
      · rw [hpurged] at hv
        rcases c.purge_cases now j with hsame | ⟨hnone, -⟩
        · rwa [hsame] at hv
        · cases hnone.symm.trans hv
    · rwa [((sameBut_timeLeft c now k).1 j hj).1] at hv
  | expiring _ | done _ _ => exact hv

/-- A check gives no counter more time than a window. -/
theorem expiries_of_step {e : Int} (he : (Check.step terms now k c s).2.expiries.find? j = some e) :
    c.expiries.find? j = some e ∨ e = now + terms.window := by
  by_cases hj : j = k
  · subst hj
    have hpurged : (c.purge now j).expiries.find? j = some e → c.expiries.find? j = some e := by
      intro he
      rcases c.purge_cases now j with hsame | ⟨-, hnone⟩
      · rwa [hsame] at he
      · cases hnone.symm.trans he
    cases s with
    | counting => exact .inl (hpurged he)
    | asking count =>
      rw [snd_step_asking] at he
      rcases c.timeLeft_cases now j with hsame | hpurge
      · exact .inl (hsame ▸ he)
      · exact .inl (hpurged (hpurge ▸ he))
    | expiring count =>
      exact .inr (Option.some.inj ((OrderedMap.find?_insert_self _ _ _).symm.trans he)).symm
    | done _ _ => exact .inl he
  · rw [((sameBut_step c s).1 j hj).2] at he
    exact .inl he

/-- A check that comes to its end leaves an expiry. -/
theorem expiry_of_step_done (h : ¬s.IsDone) (hd : (Check.step terms now k c s).1.IsDone) :
    (Check.step terms now k c s).2.expiries.find? k ≠ none := by
  cases s with
  | counting =>
    simp only [Check.step] at hd
    split at hd <;> exact hd.elim
  | asking count =>
    have htold : ∃ n, (c.timeLeft now k).1 = .millis n := by
      simp only [Check.step] at hd
      split at hd
      · rename_i n _ he
        exact ⟨n, by rw [he]⟩
      · exact hd.elim
    obtain ⟨n, hn⟩ := htold
    rw [snd_step_asking]
    exact expiry_of_timeLeft hn
  | expiring count => simp [Check.step, expire]
  | done _ _ => exact absurd trivial h

end

end Counters

/-! ## Traffic -/

/-- A table of counters in the middle of checks, each with a place in `ι`. -/
structure Traffic (ι : Type) where
  /-- The time. -/
  now : Int
  /-- The table. -/
  counters : Counters := {}
  /-- How far each check has come. -/
  checks : ι → Counters.Check := fun _ => .counting
  /-- How many lifetimes of each counter have begun. -/
  begun : String → Nat := fun _ => 0
  /-- In which lifetime of its counter each check was counted. -/
  lifetime : ι → Nat := fun _ => 0

/-- What can happen next. -/
inductive Occurrence (ι : Type) where
  /-- A check gives its next command. -/
  | command (i : ι)
  /-- Milliseconds pass. -/
  | wait (millis : Nat)
  /-- A counter loses its expiry from outside. -/
  | lose (k : String)
  deriving DecidableEq

namespace Traffic

variable {ι : Type} [DecidableEq ι] (terms : Terms) (key : ι → String)

/-- The lifetime of a counter to which a count belongs now. -/
def current (t : Traffic ι) (k : String) : Nat :=
  if t.counters.Begins t.now k then t.begun k + 1 else t.begun k

/-- A check gives its next command. -/
def command (i : ι) (t : Traffic ι) : Traffic ι :=
  let (check, counters) := Counters.Check.step terms t.now (key i) t.counters (t.checks i)
  let t' := { t with counters, checks := Function.update t.checks i check }
  if t.checks i = .counting then
    { t' with
      begun := Function.update t.begun (key i) (t.current (key i))
      lifetime := Function.update t.lifetime i (t.current (key i)) }
  else t'

/-- What an occurrence leaves. -/
def next (t : Traffic ι) : Occurrence ι → Traffic ι
  | .command i => t.command terms key i
  | .wait millis => { t with now := t.now + millis }
  | .lose k => { t with counters := t.counters.persist k }

/-- What some occurrences in a row leave. -/
def run (t : Traffic ι) (schedule : List (Occurrence ι)) : Traffic ι :=
  schedule.foldl (next terms key) t

variable {terms key} {t : Traffic ι} {i j : ι} {k : String}

theorem run_concat (t : Traffic ι) (schedule : List (Occurrence ι)) (o : Occurrence ι) :
    t.run terms key (schedule ++ [o]) = (t.run terms key schedule).next terms key o := by
  simp [run]

@[simp] theorem now_command : (t.command terms key i).now = t.now := by
  unfold command
  dsimp only
  split <;> rfl

@[simp] theorem counters_command : (t.command terms key i).counters =
    (Counters.Check.step terms t.now (key i) t.counters (t.checks i)).2 := by
  unfold command
  dsimp only
  split <;> rfl

@[simp] theorem checks_command : (t.command terms key i).checks =
    Function.update t.checks i
      (Counters.Check.step terms t.now (key i) t.counters (t.checks i)).1 := by
  unfold command
  dsimp only
  split <;> rfl

theorem checks_command_of_ne (h : j ≠ i) : (t.command terms key i).checks j = t.checks j := by
  rw [checks_command, Function.update_of_ne h]

theorem values_command_of_ne (h : k ≠ key i) :
    (t.command terms key i).counters.values.find? k = t.counters.values.find? k := by
  rw [counters_command]
  exact ((Counters.sameBut_step t.counters (t.checks i)).1 k h).1

theorem begun_command : (t.command terms key i).begun =
    if t.checks i = .counting then Function.update t.begun (key i) (t.current (key i))
    else t.begun := by
  unfold command
  dsimp only
  split <;> rfl

theorem lifetime_command : (t.command terms key i).lifetime =
    if t.checks i = .counting then Function.update t.lifetime i (t.current (key i))
    else t.lifetime := by
  unfold command
  dsimp only
  split <;> rfl

/-! ## Counts of one lifetime -/

/-- Whether the checks counted in one lifetime of a counter have different counts, none of them beyond
what the counter shows. -/
structure Numbered (key : ι → String) (t : Traffic ι) : Prop where
  pos : ∀ k v, t.counters.values.find? k = some v → 1 ≤ v
  counted : ∀ i count, (t.checks i).count? = some count →
    1 ≤ count ∧ t.lifetime i ≤ t.begun (key i) ∧
      ∀ v, t.lifetime i = t.begun (key i) → t.counters.values.find? (key i) = some v → count ≤ v
  distinct : ∀ i j count, key i = key j → t.lifetime i = t.lifetime j →
    (t.checks i).count? = some count → (t.checks j).count? = some count → i = j

omit [DecidableEq ι] in
theorem numbered_start (now : Int) : Numbered key { now } where
  pos _ _ h := nomatch h
  counted _ _ h := nomatch h
  distinct _ _ _ _ _ h := nomatch h

omit [DecidableEq ι] in
/-- What counts nothing and begins no counter leaves counts as they are. -/
theorem Numbered.of_values {t' : Traffic ι} (h : t.Numbered key)
    (hvalues : ∀ k v, t'.counters.values.find? k = some v → t.counters.values.find? k = some v)
    (hcounts : ∀ i, (t'.checks i).count? = (t.checks i).count?) (hbegun : t'.begun = t.begun)
    (hlifetime : t'.lifetime = t.lifetime) : t'.Numbered key where
  pos k v hv := h.pos k v (hvalues k v hv)
  counted i count hc := by
    rw [hcounts] at hc
    rw [hbegun, hlifetime]
    obtain ⟨hpos, hle, hmax⟩ := h.counted i count hc
    exact ⟨hpos, hle, fun v he hv => hmax v he (hvalues _ v hv)⟩
  distinct i j count := by
    rw [hcounts, hcounts, hlifetime]
    exact h.distinct i j count

omit [DecidableEq ι] in
theorem Numbered.pos_increment (h : t.Numbered key) (k : String) :
    1 ≤ (t.counters.increment t.now k).1 := by
  rcases t.counters.increment_cases t.now k with ⟨-, hone⟩ | ⟨v, -, hv, -, hadded⟩
  · omega
  · have hpos := h.pos k v hv
    omega

omit [DecidableEq ι] in
/-- The next count of a counter is beyond those of its current lifetime. -/
theorem Numbered.lt_increment (h : t.Numbered key) {count : Int}
    (hc : (t.checks j).count? = some count) :
    t.lifetime j ≤ t.current (key j) ∧
      (t.lifetime j = t.current (key j) → count < (t.counters.increment t.now (key j)).1) := by
  obtain ⟨-, hle, hmax⟩ := h.counted j count hc
  rcases t.counters.increment_cases t.now (key j) with ⟨hb, -⟩ | ⟨v, -, hv, hb, hadded⟩
  · rw [current, if_pos hb]
    exact ⟨by omega, by omega⟩
  · rw [current, if_neg hb, hadded]
    exact ⟨hle, fun he => Int.lt_add_one_of_le (hmax v he hv)⟩

/-! What the command leaves by which a check is counted. -/

section

variable (hi : t.checks i = .counting)

include hi

theorem count?_counted : ((t.command terms key i).checks i).count? =
    some (t.counters.increment t.now (key i)).1 := by
  rw [checks_command, Function.update_self, hi]
  simp only [Counters.Check.step]
  split <;> rfl

theorem value_counted : (t.command terms key i).counters.values.find? (key i) =
    some (t.counters.increment t.now (key i)).1 := by
  rw [counters_command, hi]
  exact t.counters.find?_values_increment t.now (key i)

theorem begun_counted :
    (t.command terms key i).begun = Function.update t.begun (key i) (t.current (key i)) := by
  rw [begun_command, if_pos hi]

theorem lifetime_counted :
    (t.command terms key i).lifetime = Function.update t.lifetime i (t.current (key i)) := by
  rw [lifetime_command, if_pos hi]

/-- A check that was counted before has a smaller count than the new one, or another lifetime. -/
theorem Numbered.lt_counted (h : t.Numbered key) (hj : j ≠ i) (hk : key j = key i)
    (hl : t.lifetime j = (t.command terms key i).lifetime i) {count count' : Int}
    (hc : ((t.command terms key i).checks j).count? = some count)
    (hc' : ((t.command terms key i).checks i).count? = some count') : count < count' := by
  rw [lifetime_counted hi, Function.update_self, ← hk] at hl
  rw [checks_command_of_ne hj] at hc
  obtain rfl := Option.some.inj ((count?_counted hi).symm.trans hc')
  exact hk ▸ (h.lt_increment hc).2 hl

theorem Numbered.count (h : t.Numbered key) : (t.command terms key i).Numbered key := by
  refine ⟨fun k v hv => ?_, fun j count hc => ?_, fun a b count hk hl ha hb => ?_⟩
  · by_cases hk : k = key i
    · subst hk
      obtain rfl := Option.some.inj ((value_counted hi).symm.trans hv)
      exact h.pos_increment (key i)
    · exact h.pos k v (values_command_of_ne hk ▸ hv)
  · by_cases hj : j = i
    · subst hj
      obtain rfl := Option.some.inj ((count?_counted hi).symm.trans hc)
      refine ⟨h.pos_increment _, by simp [lifetime_counted hi, begun_counted hi], fun v _ hv => ?_⟩
      obtain rfl := Option.some.inj ((value_counted hi).symm.trans hv)
      exact Int.le_refl _
    · have hc' := hc
      rw [checks_command_of_ne hj] at hc'
      obtain ⟨hpos, hle, hmax⟩ := h.counted j count hc'
      rw [lifetime_counted hi, Function.update_of_ne hj, begun_counted hi]
      by_cases hk : key j = key i
      · rw [hk, Function.update_self]
        refine ⟨hpos, hk ▸ (h.lt_increment hc').1, fun v he hv => ?_⟩
        rw [value_counted hi, ← count?_counted hi] at hv
        refine Int.le_of_lt (h.lt_counted hi hj hk ?_ hc hv)
        rw [he, lifetime_counted hi, Function.update_self]
      · rw [Function.update_of_ne hk, values_command_of_ne hk]
        exact ⟨hpos, hle, hmax⟩
  · by_cases hai : a = i <;> by_cases hbi : b = i
    · rw [hai, hbi]
    · subst hai
      rw [lifetime_counted hi, Function.update_of_ne hbi, ← lifetime_counted hi] at hl
      exact absurd (h.lt_counted hi hbi hk.symm hl.symm hb ha) (Int.lt_irrefl _)
    · subst hbi
      rw [lifetime_counted hi, Function.update_of_ne hai, ← lifetime_counted hi] at hl
      exact absurd (h.lt_counted hi hai hk hl ha hb) (Int.lt_irrefl _)
    · rw [lifetime_counted hi, Function.update_of_ne hai, Function.update_of_ne hbi] at hl
      rw [checks_command_of_ne hai] at ha
      rw [checks_command_of_ne hbi] at hb
      exact h.distinct a b count hk hl ha hb

end

theorem Numbered.command (h : t.Numbered key) (i : ι) : (t.command terms key i).Numbered key := by
  by_cases hi : t.checks i = .counting
  · exact h.count hi
  · refine h.of_values (fun k v hv => ?_) (fun j => ?_) ?_ ?_
    · rw [counters_command] at hv
      exact Counters.values_of_step hi hv
    · by_cases hj : j = i
      · rw [hj, checks_command, Function.update_self, Counters.count?_step hi]
      · rw [checks_command_of_ne hj]
    · rw [begun_command, if_neg hi]
    · rw [lifetime_command, if_neg hi]

theorem Numbered.run (h : t.Numbered key) (schedule : List (Occurrence ι)) :
    (t.run terms key schedule).Numbered key := by
  induction schedule generalizing t with
  | nil => exact h
  | cons o schedule ih =>
    refine ih ?_
    cases o with
    | command i => exact h.command i
    | wait _ | lose _ => exact h.of_values (fun _ _ hv => hv) (fun _ => rfl) rfl rfl

omit [DecidableEq ι] in
/-- As many calls are admitted in one lifetime of a counter as there are counts up to the limit. -/
theorem Numbered.card_admitted_le (h : t.Numbered key) (hlimit : 0 ≤ terms.limit) {n : Nat}
    {s : Finset ι}
    (hs : ∀ i ∈ s, key i = k ∧ t.lifetime i = n ∧ (t.checks i).Admits terms) :
    (s.card : Int) ≤ terms.limit := by
  have hcount : ∀ i ∈ s, ∃ count, (t.checks i).count? = some count ∧ 1 ≤ count ∧
      count ≤ terms.limit := by
    intro i hi
    obtain ⟨count, hc, hle⟩ := Counters.Check.le_limit_of_admits (hs i hi).2.2
    exact ⟨count, hc, (h.counted i count hc).1, hle⟩
  have hcard : s.card ≤ (Finset.Icc 1 terms.limit).card := by
    refine Finset.card_le_card_of_injOn (fun i => ((t.checks i).count?).getD 0) ?_ ?_
    · intro i hi
      obtain ⟨count, hc, hpos, hle⟩ := hcount i hi
      simp [hc, hpos, hle]
    · intro i hi j hj he
      obtain ⟨a, ha, -⟩ := hcount i hi
      obtain ⟨b, hb, -⟩ := hcount j hj
      obtain rfl : a = b := by simpa [ha, hb] using he
      exact h.distinct i j a ((hs i hi).1.trans (hs j hj).1.symm)
        ((hs i hi).2.1.trans (hs j hj).2.1.symm) ha hb
  rw [Int.card_Icc] at hcard
  omega

/-! ## Expiries -/

/-- Whether no counter is given more time than a window. -/
def Bounded (terms : Terms) (t : Traffic ι) : Prop :=
  ∀ k e, t.counters.expiries.find? k = some e → e ≤ t.now + terms.window

omit [DecidableEq ι] in
theorem bounded_start (now : Int) : Bounded terms ({ now } : Traffic ι) := fun k e he => by
  cases (OrderedMap.find?_empty k).symm.trans he

theorem Bounded.next (h : t.Bounded terms) (o : Occurrence ι) :
    (t.next terms key o).Bounded terms := by
  intro k e he
  cases o with
  | command i =>
    rw [Traffic.next, counters_command] at he
    rw [Traffic.next, now_command]
    rcases Counters.expiries_of_step he with he | rfl
    · exact h k e he
    · exact Int.le_refl _
  | wait millis =>
    have hle : e ≤ t.now + terms.window := h k e he
    show e ≤ t.now + millis + terms.window
    omega
  | lose j =>
    by_cases hk : k = j
    · subst hk
      cases (OrderedMap.find?_erase_self t.counters.expiries k).symm.trans he
    · exact h k e ((OrderedMap.find?_erase_of_ne _ hk).symm.trans he)

/-- Whether a counter, if it has no expiry, has a check that is about to give it one. -/
def Guarded (key : ι → String) (k : String) (t : Traffic ι) : Prop :=
  t.counters.values.find? k ≠ none → t.counters.expiries.find? k = none →
    ∃ i count, key i = k ∧ t.checks i = .expiring count

/-- Whether a check under the key of a counter comes to its end between two states. -/
def Completes (key : ι → String) (k : String) (t t' : Traffic ι) : Prop :=
  ∃ i, key i = k ∧ ¬(t.checks i).IsDone ∧ (t'.checks i).IsDone

theorem guarded_of_done (hi : ¬(t.checks i).IsDone)
    (hd : ((t.command terms key i).checks i).IsDone) :
    (t.command terms key i).Guarded key (key i) := by
  rw [checks_command, Function.update_self] at hd
  intro _ hnone
  rw [counters_command] at hnone
  exact absurd hnone (Counters.expiry_of_step_done hi hd)

/-- Who comes to an end with an occurrence gave its command with it. -/
theorem guarded_of_completes {o : Occurrence ι} (h : Completes key k t (t.next terms key o)) :
    (t.next terms key o).Guarded key k := by
  obtain ⟨i, rfl, hi, hd⟩ := h
  cases o with
  | command j =>
    by_cases hj : i = j
    · subst hj
      exact guarded_of_done hi hd
    · rw [Traffic.next, checks_command_of_ne hj] at hd
      exact absurd hd hi
  | wait _ | lose _ => exact absurd hd hi

theorem Guarded.command (h : t.Guarded key k) (i : ι) : (t.command terms key i).Guarded key k := by
  by_cases hk : key i = k
  · subst hk
    cases hi : t.checks i with
    | counting =>
      rcases t.counters.increment_cases t.now (key i) with ⟨-, hone⟩ | ⟨v, hsame, hv, -, -⟩
      · -- The first count of a lifetime is followed by an expiry.
        intro _ _
        refine ⟨i, 1, rfl, ?_⟩
        rw [checks_command, Function.update_self, hi]
        simp [Counters.Check.step, hone]
      · intro _ hnone
        have hexpiries : (t.command terms key i).counters.expiries = t.counters.expiries := by
          rw [counters_command, hi]
          show (t.counters.purge t.now (key i)).expiries = t.counters.expiries
          rw [hsame]
        rw [hexpiries] at hnone
        obtain ⟨j, count, hj, hexp⟩ := h (by simp [hv]) hnone
        have hne : j ≠ i := by
          rintro rfl
          cases hi.symm.trans hexp
        exact ⟨j, count, hj, (checks_command_of_ne hne).trans hexp⟩
    | asking count =>
      have hi' : (t.command terms key i).checks i =
          (Counters.Check.step terms t.now (key i) t.counters (.asking count)).1 := by
        rw [checks_command, Function.update_self, hi]
      rcases Counters.Check.step_asking terms t.now (key i) t.counters count with he | ⟨left, he⟩
      · exact fun _ _ => ⟨i, count, rfl, hi'.trans he⟩
      · refine guarded_of_done (by simp [hi, Counters.Check.IsDone]) ?_
        rw [hi', he]
        trivial
    | expiring count =>
      refine guarded_of_done (by simp [hi, Counters.Check.IsDone]) ?_
      rw [checks_command, Function.update_self, hi]
      trivial
    | done count left =>
      have hsame : (t.command terms key i).counters = t.counters := by
        rw [counters_command, hi]
        rfl
      have hchecks : (t.command terms key i).checks = t.checks := by
        rw [checks_command, hi, Counters.Check.step, ← hi, Function.update_eq_self]
      rw [Guarded, hsame, hchecks]
      exact h
  · -- A check under another key leaves the counter and its checks alone.
    have hexpiry : (t.command terms key i).counters.expiries.find? k = t.counters.expiries.find? k := by
      rw [counters_command]
      exact ((Counters.sameBut_step t.counters (t.checks i)).1 k (Ne.symm hk)).2
    intro hvalue hnone
    rw [values_command_of_ne (Ne.symm hk)] at hvalue
    rw [hexpiry] at hnone
    obtain ⟨j, count, hj, hexp⟩ := h hvalue hnone
    have hne : j ≠ i := by
      rintro rfl
      exact hk hj
    exact ⟨j, count, hj, (checks_command_of_ne hne).trans hexp⟩

theorem Guarded.next (h : t.Guarded key k) {o : Occurrence ι} (ho : o ≠ .lose k) :
    (t.next terms key o).Guarded key k := by
  cases o with
  | command i => exact h.command i
  | wait _ => exact h
  | lose j =>
    have hne : k ≠ j := by
      rintro rfl
      exact ho rfl
    intro hvalue hnone
    exact h hvalue ((OrderedMap.find?_erase_of_ne _ hne).symm.trans hnone)

/-- Whether behind every loss of a counter's expiry a check under its key is completed. -/
def Recovers (terms : Terms) (key : ι → String) (k : String) (t : Traffic ι)
    (schedule : List (Occurrence ι)) : Prop :=
  ∀ before after, schedule = before ++ .lose k :: after →
    Completes key k (t.run terms key (before ++ [.lose k])) (t.run terms key schedule)

/-- A counter is guarded, or it lost its expiry and no check under its key was completed since. -/
theorem guarded_run_or (h : t.Guarded key k) (schedule : List (Occurrence ι)) :
    (t.run terms key schedule).Guarded key k ∨
      ∃ before after, schedule = before ++ .lose k :: after ∧
        ¬Completes key k (t.run terms key (before ++ [.lose k])) (t.run terms key schedule) := by
  induction schedule using List.reverseRecOn with
  | nil => exact .inl h
  | append_singleton schedule o ih =>
    by_cases ho : o = .lose k
    · subst ho
      exact .inr ⟨schedule, [], rfl, fun ⟨_, _, hn, hd⟩ => hn hd⟩
    · rw [run_concat]
      by_cases hc : Completes key k (t.run terms key schedule)
          ((t.run terms key schedule).next terms key o)
      · exact .inl (guarded_of_completes hc)
      · rcases ih with hguarded | ⟨before, after, hsplit, hopen⟩
        · exact .inl (hguarded.next ho)
        · refine .inr ⟨before, after ++ [o], by rw [hsplit]; simp, ?_⟩
          rintro ⟨i, hi, hn, hd⟩
          by_cases hm : ((t.run terms key schedule).checks i).IsDone
          · exact hopen ⟨i, hi, hn, hm⟩
          · exact hc ⟨i, hi, hm, hd⟩

theorem Bounded.run (h : t.Bounded terms) (schedule : List (Occurrence ι)) :
    (t.run terms key schedule).Bounded terms := by
  induction schedule generalizing t with
  | nil => exact h
  | cons o schedule ih => exact ih (h.next o)

omit [DecidableEq ι] in
/-- A live counter of which no check is in flight expires within one window. -/
theorem expiry_of_settled (hb : t.Bounded terms) (hg : t.Guarded key k)
    (hsettled : ∀ i, key i = k → ¬(t.checks i).InFlight) {count : Int}
    (hv : t.counters.values.find? k = some count) (hlive : t.counters.isExpired t.now k = false) :
    ∃ expiry, t.counters.expiries.find? k = some expiry ∧ t.now < expiry ∧
      expiry ≤ t.now + terms.window := by
  cases he : t.counters.expiries.find? k with
  | none =>
    obtain ⟨i, count', hi, hexp⟩ := hg (by simp [hv]) he
    refine absurd ?_ (hsettled i hi)
    rw [hexp]
    trivial
  | some expiry =>
    refine ⟨expiry, rfl, ?_, hb k expiry he⟩
    simpa [Counters.isExpired, he] using hlive

/-- However the commands of any number of checks, the passing of time and losses of expiries come one
after another: of the checks counted in one lifetime of a counter no more are admitted than the limit says,
and a live counter of which no check is in flight expires within one window, if behind every loss of its
expiry a check of it was completed. -/
theorem admitted_and_expiry_of_run (seconds : Int) {limit : Int} (hlimit : 0 ≤ limit)
    (user : ι → String) (now : Int) (schedule : List (Occurrence ι)) :
    let terms := Terms.ofSeconds seconds limit
    let key i := Counters.key (user i)
    let t := run terms key { now } schedule
    (∀ k n (s : Finset ι),
      (∀ i ∈ s, key i = k ∧ t.lifetime i = n ∧ (t.checks i).Admits terms) →
        (s.card : Int) ≤ limit) ∧
    ∀ k, Recovers terms key k { now } schedule → (∀ i, key i = k → ¬(t.checks i).InFlight) →
      ∀ count, t.counters.values.find? k = some count → t.counters.isExpired t.now k = false →
        ∃ expiry, t.counters.expiries.find? k = some expiry ∧ t.now < expiry ∧
          expiry ≤ t.now + seconds * 1000 := by
  intro terms key t
  refine ⟨fun k n s hs => ?_, fun k hrecovers hsettled count hv hlive => ?_⟩
  · exact ((numbered_start now).run schedule).card_admitted_le hlimit hs
  · have hbounded : t.Bounded terms := (bounded_start now).run schedule
    have hguarded : t.Guarded key k := by
      have hstart : Guarded key k { now } := fun hvalue _ => absurd rfl hvalue
      refine (guarded_run_or hstart schedule).resolve_right ?_
      rintro ⟨before, after, hsplit, hopen⟩
      exact hopen (hrecovers before after hsplit)
    exact expiry_of_settled hbounded hguarded hsettled hv hlive

/-- One call a second: of two calls counted in one lifetime the first is admitted; the counter loses its
expiry, and the third call, refused, gives it another one. -/
theorem admitted_and_expiry_of_run_loss :
    let user (_ : Fin 3) := "ann"
    let schedule : List (Occurrence (Fin 3)) := [.command 0, .command 1, .command 0, .command 1,
      .lose (Counters.key "ann"), .command 2, .wait 100, .command 2, .command 2]
    let t := run (.ofSeconds 1 1) (fun i => Counters.key (user i)) { now := 0 } schedule
    (t.checks 0).Admits (.ofSeconds 1 1) ∧ (∀ i, t.lifetime i = 1) ∧
      (∀ s : Finset (Fin 3), (∀ i ∈ s, (t.checks i).Admits (.ofSeconds 1 1)) → (s.card : Int) ≤ 1) ∧
      ∃ expiry, t.counters.expiries.find? (Counters.key "ann") = some expiry ∧ t.now < expiry ∧
        expiry ≤ t.now + 1 * 1000 := by
  intro user schedule t
  have hlifetime : ∀ i, t.lifetime i = 1 := by decide +kernel
  have hdecision : ((t.checks 0).decision? (.ofSeconds 1 1) 0) = some ⟨true, 0, 1000⟩ := by
    decide +kernel
  have hsettled : ∀ i, ¬(t.checks i).InFlight := by decide +kernel
  have hvalue : t.counters.values.find? (Counters.key "ann") = some 3 := by decide +kernel
  have hlive : t.counters.isExpired t.now (Counters.key "ann") = false := by decide +kernel
  have hrecovers : Recovers (.ofSeconds 1 1) (fun i => Counters.key (user i)) (Counters.key "ann")
      { now := 0 } schedule := by
    intro before after h
    obtain rfl : before = schedule.take 4 := by
      simp [schedule, List.cons_eq_append_iff] at h
      simp [schedule, h]
    exact ⟨2, rfl, by decide +kernel, by decide +kernel⟩
  have hlimit : (0 : Int) ≤ 1 := by decide
  have hrun := admitted_and_expiry_of_run 1 hlimit user 0 schedule
  have ht : t = run (.ofSeconds 1 1) (fun i => Counters.key (user i)) { now := 0 } schedule := rfl
  clear_value t
  dsimp only at hrun
  rw [← ht] at hrun
  obtain ⟨hcard, hexpiry⟩ := hrun
  exact ⟨⟨0, _, hdecision, rfl⟩, hlifetime,
    fun s hs => hcard (Counters.key "ann") 1 s fun i hi => ⟨rfl, hlifetime i, hs i hi⟩,
    hexpiry (Counters.key "ann") hrecovers (fun i _ => hsettled i) 3 hvalue hlive⟩

end Traffic

end VersionedSite.Quota
