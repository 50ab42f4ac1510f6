import VersionedSite.Clock
import VersionedSite.Proofs.Number.Rounding

/-!
# Reckoning in seconds

What is kept for a number of seconds is not up sooner, for all that readings of the clock and the
differences between them are rounded (`isUp_inSeconds_of_lt`, `isDue_inSeconds_of_lt`): within the years
that dates are written for, the roundings make up less than a millisecond.
-/

namespace VersionedSite

variable {now since life : Int}

theorem seconds_bounds (h : isDatable now = true) :
    (-62135596800 : ℚ) ≤ now / 1000 ∧ (now / 1000 : ℚ) < 253402300800 := by
  unfold isDatable at h
  rw [Bool.and_eq_true, decide_eq_true_eq, decide_eq_true_eq] at h
  have hlow : (-62135596800000 : ℚ) ≤ now := by exact_mod_cast h.1
  have hhigh : (now : ℚ) ≤ 253402300799999 := by exact_mod_cast h.2
  constructor <;> linarith

theorem clockSeconds_near (h : isDatable now = true) :
    ∃ p, (clockSeconds now).value? = some p ∧ |p - now / 1000| ≤ 1 / 4096 := by
  have hrounds : (Binary.ofSigned false now 1000).Rounds (now / 1000) := by
    exact_mod_cast Binary.rounds_ofSigned false now (by decide : 0 < 1000)
  obtain ⟨hlow, hhigh⟩ := seconds_bounds h
  refine hrounds.exists_near ?_
  rw [abs_le]
  constructor <;> linarith

/-- No date is as early as what stands for a time far below all of them. -/
theorem clockSeconds_not_atMost {x : Binary} {q : ℚ} (h : isDatable since = true) (hx : x.Rounds q)
    (hq : q ≤ -2 ^ 37) : (clockSeconds since).atMost (.real x) = false := by
  obtain ⟨p, hp, hpe⟩ := clockSeconds_near h
  have hneg : q < 0 := by linarith
  obtain rfl | ⟨d, hd, hde⟩ := hx.exists_rough
  · rw [decide_eq_true hneg]
    exact Number.atMost_infinite hp
  · have hlow := (seconds_bounds h).1
    rw [abs_le] at hpe
    rw [abs_of_neg hneg, abs_le] at hde
    have hnot : ¬ p ≤ d := by linarith
    rw [← Bool.not_eq_true]
    exact fun hdue => hnot ((Number.atMost_iff hp ((Number.value?_real x).trans hd)).1 hdue)

namespace Expiry

/-- What is asked for before its time is there. -/
theorem isUp_inSeconds_of_lt (hs : isDatable since = true) (hn : isDatable now = true)
    (h : now - since < 1000 * life) : (inSeconds (.int life)).isUp since now = false := by
  have hlt : (now : ℚ) - since + 1 ≤ 1000 * life := by exact_mod_cast h
  obtain ⟨p, hp, hpe⟩ := clockSeconds_near hn
  obtain ⟨q, hq, hqe⟩ := clockSeconds_near hs
  rw [abs_le] at hpe hqe
  have hage : |p + -q| ≤ 2 ^ 40 := by
    have hnow := seconds_bounds hn
    have hsince := seconds_bounds hs
    rw [abs_le]
    constructor <;> linarith
  obtain ⟨d, hd, hde⟩ := (Binary.rounds_add hp (Binary.value?_neg hq)).exists_near hage
  rw [abs_le] at hde
  have hnot : ¬ (life : ℚ) ≤ d := by linarith
  rw [← Bool.not_eq_true]
  exact fun hup => hnot ((Number.atMost_iff (Number.value?_int life)
    ((Number.value?_real _).trans hd)).1 hup)

/-- What is looked through before its time stays. -/
theorem isDue_inSeconds_of_lt (hs : isDatable since = true) (hn : isDatable now = true)
    (h : now - since < 1000 * life) : (inSeconds (.int life)).isDue since now = false := by
  have hlt : (now : ℚ) - since + 1 ≤ 1000 * life := by exact_mod_cast h
  obtain ⟨p, hp, hpe⟩ := clockSeconds_near hn
  obtain ⟨q, hq, hqe⟩ := clockSeconds_near hs
  rw [abs_le] at hpe hqe
  have hnow := seconds_bounds hn
  have hsince := seconds_bounds hs
  have hlow : (-2 ^ 39 : ℚ) ≤ life := by linarith
  rcases le_or_gt (life : ℚ) (2 ^ 39) with hshort | hlong
  · obtain ⟨l, hl, hle⟩ := (Binary.rounds_ofInt life).exists_near (abs_le.2 ⟨by linarith, by linarith⟩)
    rw [abs_le] at hle
    have hcutoff : |p + -l| ≤ 2 ^ 40 := by
      rw [abs_le]
      constructor <;> linarith
    obtain ⟨d, hd, hde⟩ := (Binary.rounds_add hp (Binary.value?_neg hl)).exists_near hcutoff
    rw [abs_le] at hde
    have hnot : ¬ q ≤ d := by linarith
    rw [← Bool.not_eq_true]
    exact fun hdue => hnot ((Number.atMost_iff hq ((Number.value?_real _).trans hd)).1 hdue)
  · -- What is kept for longer than all dates take is never due.
    have hpos : (0 : ℚ) < life := by linarith
    obtain he | ⟨l, hl, hle⟩ := (Binary.rounds_ofInt life).exists_rough
    · rw [decide_eq_false (not_lt.2 hpos.le)] at he
      have hcutoff : (clockSeconds now).sub (.int life) = .real (.infinite true) := by
        show Number.real ((Binary.ofSigned false now 1000).add (Binary.ofInt life).neg) = _
        rw [he]
        exact congrArg Number.real (Binary.add_infinite hp true)
      show (clockSeconds since).atMost ((clockSeconds now).sub (.int life)) = false
      rw [hcutoff]
      exact Number.atMost_infinite hq
    · rw [abs_of_pos hpos, abs_le] at hle
      exact clockSeconds_not_atMost hs (Binary.rounds_add hp (Binary.value?_neg hl)) (by linarith)

end Expiry

end VersionedSite
