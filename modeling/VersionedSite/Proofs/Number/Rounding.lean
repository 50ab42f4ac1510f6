import Mathlib.Algebra.Order.Field.Power
import Mathlib.Data.Rat.Cast.Order
import Mathlib.Tactic.FieldSimp
import Mathlib.Tactic.Linarith
import Mathlib.Tactic.Positivity
import Mathlib.Tactic.Ring
import VersionedSite.Number.Basic

/-!
# Rounding errors

A number of double precision is off by no more than `2 ^ -53` of what it stands for, or by half a
smallest step, unless that is beyond all such numbers (`Rounds`). So are the number nearest to a ratio
(`rounds_ofSigned`), to a whole number (`rounds_ofInt`), and the sum and the product of two numbers
(`rounds_add`, `rounds_mul`).

Numbers compare as their exact values do (`atMost_iff`).
-/

namespace VersionedSite

namespace Binary

/-- The exact value of a finite number. -/
def value? (x : Binary) : Option ℚ := x.ratio?.map fun r => (r.1 : ℚ) / r.2

theorem value?_finite (negative : Bool) (m : Nat) (e : Int) :
    (finite negative m e).value? = some ((if negative then -1 else 1 : ℚ) * (m * (2 : ℚ) ^ e)) := by
  unfold value? ratio?
  by_cases he : e ≥ 0
  · obtain ⟨k, rfl⟩ := Int.eq_ofNat_of_zero_le he
    simp only [he, if_true]
    cases negative <;> simp
  · obtain ⟨k, rfl⟩ : ∃ k : Nat, e = -k := ⟨(-e).toNat, by omega⟩
    simp only [he, if_false]
    cases negative <;> simp [zpow_neg, div_eq_mul_inv]

/-- The denominators of exact values are positive. -/
theorem den_pos_of_ratio? {x : Binary} {r : Int × Nat} (h : x.ratio? = some r) : 0 < r.2 := by
  cases x with
  | finite negative m e =>
    unfold ratio? at h
    by_cases he : e ≥ 0
    · simp only [he, if_true, Option.some.injEq] at h
      rw [← h]
      exact Nat.one_pos
    · simp only [he, if_false, Option.some.injEq] at h
      rw [← h]
      exact Nat.two_pow_pos _
  | infinite negative => cases h
  | undefined => cases h

/-! ## Ratios -/

theorem abs_roundRatio_sub_le (num : Nat) {den : Nat} (hd : 0 < den) :
    |(roundRatio num den : ℚ) - num / den| ≤ 1 / 2 := by
  have hden : (0 : ℚ) < den := by exact_mod_cast hd
  have hsum : (num : ℚ) / den = (num / den : Nat) + (num % den : Nat) / den := by
    rw [eq_comm, ← eq_sub_iff_add_eq']
    field_simp
    have hnat : (den : ℚ) * (num / den : Nat) + (num % den : Nat) = num := by
      exact_mod_cast Nat.div_add_mod num den
    linarith
  have hnonneg : (0 : ℚ) ≤ (num % den : Nat) / den := by positivity
  have hlt : ((num % den : Nat) : ℚ) / den < 1 := by
    rw [div_lt_one hden]
    exact_mod_cast Nat.mod_lt num hd
  have hle : 2 * (num % den) ≤ den → ((num % den : Nat) : ℚ) / den ≤ 1 / 2 := by
    intro h
    rw [div_le_div_iff₀ hden (by norm_num)]
    have hq : ((2 * (num % den) : Nat) : ℚ) ≤ den := by exact_mod_cast h
    push_cast at hq ⊢
    linarith
  have hge : den ≤ 2 * (num % den) → 1 / 2 ≤ ((num % den : Nat) : ℚ) / den := by
    intro h
    rw [div_le_div_iff₀ (by norm_num) hden]
    have hq : (den : ℚ) ≤ ((2 * (num % den) : Nat) : ℚ) := by exact_mod_cast h
    push_cast at hq ⊢
    linarith
  have hdown : 2 * (num % den) ≤ den → |((num / den : Nat) : ℚ) - num / den| ≤ 1 / 2 := by
    intro h
    rw [hsum, abs_le]
    constructor <;> linarith [hle h]
  have hup : den ≤ 2 * (num % den) → |((num / den + 1 : Nat) : ℚ) - num / den| ≤ 1 / 2 := by
    intro h
    rw [hsum, abs_le]
    push_cast
    constructor <;> linarith [hge h]
  unfold roundRatio
  dsimp only
  split
  · exact hdown (by omega)
  · split
    · exact hup (by omega)
    · split
      · exact hdown (by omega)
      · exact hup (by omega)

theorem scaled_spec (num : Nat) {den : Nat} (hd : 0 < den) (e : Int) :
    0 < (scaled num den e).2 ∧
      ((scaled num den e).1 : ℚ) / (scaled num den e).2 = num / den / 2 ^ e := by
  unfold scaled
  by_cases he : 0 ≤ e
  · lift e to Nat using he
    have hge : (e : Int) ≥ 0 := Int.natCast_nonneg e
    rw [if_pos hge]
    refine ⟨Nat.mul_pos hd (Nat.two_pow_pos _), ?_⟩
    simp only [Int.toNat_natCast, Nat.pow_eq, Nat.cast_mul, Nat.cast_pow, Nat.cast_ofNat, zpow_natCast]
    rw [div_div]
  · obtain ⟨k, rfl⟩ : ∃ k : Nat, e = -k := ⟨(-e).toNat, by omega⟩
    rw [if_neg he]
    refine ⟨hd, ?_⟩
    simp only [neg_neg, Int.toNat_natCast, Nat.pow_eq, Nat.cast_mul, Nat.cast_pow, Nat.cast_ofNat,
      zpow_neg, zpow_natCast, div_inv_eq_mul]
    rw [mul_div_right_comm]

/-! ## Exponents -/

theorem zpow_log2_le {n : Nat} (hn : n ≠ 0) : (2 : ℚ) ^ (n.log2 : Int) ≤ n := by
  rw [zpow_natCast]
  exact_mod_cast Nat.log2_self_le hn

theorem lt_zpow_log2 (n : Nat) : (n : ℚ) < 2 ^ ((n.log2 : Int) + 1) := by
  have h : n < 2 ^ (n.log2 + 1) := Nat.lt_log2_self
  exact_mod_cast h

/-- The lengths of a ratio's terms tell the ratio up to a factor of four. -/
theorem ratio_bounds {num den : Nat} (hn : 0 < num) (hd : 0 < den) {g : Int}
    (hg : g = (num.log2 : Int) - den.log2 - 52) :
    (2 : ℚ) ^ (51 : Int) * 2 ^ g < num / den ∧ (num / den : ℚ) < 2 ^ (53 : Int) * 2 ^ g := by
  have htwo : (2 : ℚ) ≠ 0 := by norm_num
  have hden : (0 : ℚ) < den := by exact_mod_cast hd
  have hden_le := zpow_log2_le hd.ne'
  have hden_lt := lt_zpow_log2 den
  constructor
  · rw [← zpow_add₀ htwo, lt_div_iff₀ hden]
    calc (2 : ℚ) ^ (51 + g) * den < 2 ^ (51 + g) * 2 ^ ((den.log2 : Int) + 1) := by gcongr
      _ = 2 ^ (num.log2 : Int) := by rw [← zpow_add₀ htwo]; congr 1; omega
      _ ≤ num := zpow_log2_le hn.ne'
  · rw [← zpow_add₀ htwo, div_lt_iff₀ hden]
    calc (num : ℚ) < 2 ^ ((num.log2 : Int) + 1) := lt_zpow_log2 num
      _ = 2 ^ (53 + g) * 2 ^ (den.log2 : Int) := by rw [← zpow_add₀ htwo]; congr 1; omega
      _ ≤ 2 ^ (53 + g) * den := by gcongr

/-- The exponent of a ratio leaves it a significand of at most 53 bits, and of no fewer unless it is the
least one. -/
theorem exponentFor_spec {num den : Nat} (hn : 0 < num) (hd : 0 < den) :
    (num / den : ℚ) < 2 ^ (53 : Int) * 2 ^ exponentFor num den ∧
      (exponentFor num den = leastExponent ∨
        (2 : ℚ) ^ (52 : Int) * 2 ^ exponentFor num den ≤ num / den) := by
  have htwo : (2 : ℚ) ≠ 0 := by norm_num
  obtain ⟨g, hg⟩ : ∃ g : Int, g = (num.log2 : Int) - den.log2 - 52 := ⟨_, rfl⟩
  obtain ⟨hlow, hhigh⟩ := ratio_bounds hn hd hg
  obtain ⟨hpos, hscaled⟩ := scaled_spec num hd g
  have hpow : (0 : ℚ) < 2 ^ g := by positivity
  have hdiv : ∀ k : Nat, (scaled num den g).1 / (scaled num den g).2 < 2 ^ k ↔
      (num / den : ℚ) < 2 ^ (k : Int) * 2 ^ g := by
    intro k
    rw [Nat.div_lt_iff_lt_mul hpos, ← div_lt_iff₀ hpow, ← hscaled,
      div_lt_iff₀ (by exact_mod_cast hpos), zpow_natCast]
    exact_mod_cast Iff.rfl
  have hprev : ∀ k : Int, (2 : ℚ) ^ k * 2 ^ g = 2 ^ (k + 1) * 2 ^ (g - 1) := by
    intro k
    rw [← zpow_add₀ htwo, ← zpow_add₀ htwo]
    congr 1
    omega
  have hexact : ∃ e, exponentFor num den = max e leastExponent ∧
      (num / den : ℚ) < 2 ^ (53 : Int) * 2 ^ e ∧ (2 : ℚ) ^ (52 : Int) * 2 ^ e ≤ num / den := by
    by_cases hsmall : (scaled num den g).1 / (scaled num den g).2 < 2 ^ 52
    · refine ⟨g - 1, ?_, ?_, ?_⟩
      · simp only [exponentFor, ← hg, Nat.pow_eq, hsmall, if_true]
      · rw [← show (52 : Int) + 1 = 53 from rfl, ← hprev]
        exact (hdiv 52).1 hsmall
      · rw [← show (51 : Int) + 1 = 52 from rfl, ← hprev]
        exact hlow.le
    · have hlarge : ¬ (scaled num den g).1 / (scaled num den g).2 ≥ 2 ^ 53 :=
        Nat.not_le.2 ((hdiv 53).2 hhigh)
      refine ⟨g, ?_, hhigh, not_lt.1 fun h => hsmall ((hdiv 52).2 h)⟩
      simp only [exponentFor, ← hg, Nat.pow_eq, hsmall, hlarge, if_false]
  obtain ⟨e, he, hlt, hle⟩ := hexact
  rw [he]
  rcases le_total leastExponent e with h | h
  · rw [max_eq_left h]
    exact ⟨hlt, .inr hle⟩
  · rw [max_eq_right h]
    refine ⟨hlt.trans_le ?_, .inl rfl⟩
    gcongr
    norm_num

/-! ## Errors -/

/-- A significand is off by half a step of its exponent: a small part of the ratio, or half a smallest
step. -/
theorem abs_significand_sub_le {num den : Nat} (hn : 0 < num) (hd : 0 < den) {m : Nat} {e : Int}
    (he : e = exponentFor num den) (hm : m = roundRatio (scaled num den e).1 (scaled num den e).2) :
    |(m * 2 ^ e : ℚ) - num / den| ≤ num / den * 2 ^ (-53 : Int) + 2 ^ (-1075 : Int) := by
  have htwo : (2 : ℚ) ≠ 0 := by norm_num
  have hx : (0 : ℚ) ≤ num / den := by positivity
  have hpow : (0 : ℚ) < 2 ^ e := by positivity
  obtain ⟨hpos, hscaled⟩ := scaled_spec num hd e
  have hround : |(m : ℚ) - num / den / 2 ^ e| ≤ 1 / 2 := by
    rw [hm, ← hscaled]
    exact abs_roundRatio_sub_le _ hpos
  have hstep : |(m * 2 ^ e : ℚ) - num / den| ≤ 1 / 2 * 2 ^ e := by
    have hfactor : (m * 2 ^ e : ℚ) - num / den = (m - num / den / 2 ^ e) * 2 ^ e := by
      rw [sub_mul, div_mul_cancel₀ _ hpow.ne']
    rw [hfactor, abs_mul, abs_of_pos hpow]
    gcongr
  refine hstep.trans ?_
  rcases (exponentFor_spec hn hd).2 with hleast | hle
  · have hsmallest : 1 / 2 * (2 : ℚ) ^ e = 2 ^ (-1075 : Int) := by
      rw [he, hleast, leastExponent, one_div, ← zpow_neg_one, ← zpow_add₀ htwo]
      norm_num
    rw [hsmallest]
    exact le_add_of_nonneg_left (by positivity)
  · rw [← he] at hle
    have hhalf : 1 / 2 * (2 : ℚ) ^ e = 2 ^ (52 : Int) * 2 ^ e * 2 ^ (-53 : Int) := by
      rw [one_div, ← zpow_neg_one, ← zpow_add₀ htwo, ← zpow_add₀ htwo, ← zpow_add₀ htwo]
      congr 1
      omega
    rw [hhalf]
    exact (mul_le_mul_of_nonneg_right hle (by positivity)).trans (le_add_of_nonneg_right (by positivity))

/-- A ratio whose exponent is not below the greatest one is large. -/
theorem le_of_greatestExponent_le {num den : Nat} (hn : 0 < num) (hd : 0 < den)
    (h : greatestExponent ≤ exponentFor num den) : (2 : ℚ) ^ (1023 : Int) ≤ num / den := by
  rcases (exponentFor_spec hn hd).2 with hleast | hle
  · rw [hleast] at h
    cases h
  · refine le_trans ?_ hle
    rw [← zpow_add₀ (by norm_num)]
    exact zpow_le_zpow_right₀ (by norm_num) (by unfold greatestExponent at h; omega)

/-- The number nearest to a ratio is off by a small part of it, or by half a smallest step, unless the
ratio is beyond all such numbers. -/
theorem ofRatio_cases (negative : Bool) {num den : Nat} (hn : 0 < num) (hd : 0 < den) :
    (ofRatio negative num den = infinite negative ∧ (2 : ℚ) ^ (1023 : Int) ≤ num / den) ∨
      ∃ (m : Nat) (e : Int), ofRatio negative num den = finite negative m e ∧
        |(m * 2 ^ e : ℚ) - num / den| ≤ num / den * 2 ^ (-53 : Int) + 2 ^ (-1075 : Int) := by
  obtain ⟨e, he⟩ : ∃ e : Int, e = exponentFor num den := ⟨_, rfl⟩
  obtain ⟨m, hm⟩ : ∃ m : Nat, m = roundRatio (scaled num den e).1 (scaled num den e).2 := ⟨_, rfl⟩
  have herror := abs_significand_sub_le hn hd he hm
  have hlarge : greatestExponent ≤ e → (2 : ℚ) ^ (1023 : Int) ≤ num / den :=
    fun hge => le_of_greatestExponent_le hn hd (he ▸ hge)
  -- A significand that is rounded up to the next power of two is that power with the next exponent.
  by_cases hcarry : m = 2 ^ 53
  · by_cases hover : e + 1 > greatestExponent
    · refine .inl ⟨?_, hlarge (by omega)⟩
      simp only [ofRatio, hn.ne', if_false, ← he, ← hm, hcarry, Nat.pow_eq, if_true, hover]
    · refine .inr ⟨2 ^ 52, e + 1, ?_, ?_⟩
      · simp only [ofRatio, hn.ne', if_false, ← he, ← hm, hcarry, Nat.pow_eq, if_true, hover]
      · have hsame : (((2 ^ 52 : Nat) : ℚ)) * 2 ^ (e + 1) = m * 2 ^ e := by
          rw [hcarry, zpow_add₀ (by norm_num)]
          push_cast
          ring
        rw [hsame]
        exact herror
  · by_cases hover : e > greatestExponent
    · refine .inl ⟨?_, hlarge (by omega)⟩
      simp only [ofRatio, hn.ne', if_false, ← he, ← hm, hcarry, Nat.pow_eq, hover, if_true]
    · refine .inr ⟨m, e, ?_, herror⟩
      simp only [ofRatio, hn.ne', if_false, ← he, ← hm, hcarry, Nat.pow_eq, hover]

/-- Whether a number of double precision is what an exact value is rounded to. -/
def Rounds (x : Binary) (q : ℚ) : Prop :=
  (x = infinite (decide (q < 0)) ∧ (2 : ℚ) ^ (1023 : Int) ≤ |q|) ∨
    ∃ p, x.value? = some p ∧ |p - q| ≤ |q| * 2 ^ (-53 : Int) + 2 ^ (-1075 : Int)

theorem rounds_ofSigned (zeroNegative : Bool) (num : Int) {den : Nat} (hd : 0 < den) :
    (ofSigned zeroNegative num den).Rounds (num / den) := by
  have hden : (0 : ℚ) < den := by exact_mod_cast hd
  unfold ofSigned
  by_cases hz : num = 0
  · refine .inr ⟨0, ?_, ?_⟩
    · simp [hz, value?_finite]
    · rw [hz, Int.cast_zero, zero_div, sub_zero, abs_zero, zero_mul, zero_add]
      positivity
  · rw [if_neg hz]
    have hneg : ((num : ℚ) / den < 0) ↔ num < 0 := by
      rw [div_lt_iff₀ hden, zero_mul]
      exact_mod_cast Iff.rfl
    have habs : |(num : ℚ) / den| = num.natAbs / den := by
      rw [abs_div, abs_of_pos hden, Nat.cast_natAbs, Int.cast_abs]
    rcases ofRatio_cases (decide (num < 0)) (Int.natAbs_pos.2 hz) hd with ⟨he, hle⟩ | ⟨m, e, he, herr⟩
    · refine .inl ⟨?_, habs ▸ hle⟩
      rw [he]
      congr 1
      exact decide_eq_decide.2 hneg.symm
    · refine .inr ⟨_, by rw [he, value?_finite], ?_⟩
      rw [habs]
      by_cases hlt : num < 0
      · have hq : (num : ℚ) / den = -(num.natAbs / den) := by
          rw [← habs, abs_of_neg (hneg.2 hlt), neg_neg]
        rw [decide_eq_true hlt, if_pos rfl, hq, neg_one_mul, neg_sub_neg, abs_sub_comm]
        exact herr
      · have hq : (num : ℚ) / den = num.natAbs / den := by
          rw [← habs, abs_of_nonneg (not_lt.1 (hneg.not.2 hlt))]
        rw [decide_eq_false hlt, if_neg Bool.false_ne_true, hq, one_mul]
        exact herr

theorem ofInt_eq (n : Int) : ofInt n = ofSigned false n 1 := by
  unfold ofInt ofSigned
  by_cases hn : n = 0 <;> simp [hn]

theorem rounds_ofInt (n : Int) : (ofInt n).Rounds n := by
  have h := rounds_ofSigned false n Nat.one_pos
  rwa [← ofInt_eq, Nat.cast_one, div_one] at h

theorem value?_neg {x : Binary} {p : ℚ} (h : x.value? = some p) : x.neg.value? = some (-p) := by
  cases x with
  | finite negative m e =>
    rw [value?_finite] at h
    rw [neg, value?_finite, ← Option.some.inj h]
    cases negative <;> simp
  | infinite negative => cases h
  | undefined => cases h

variable {x y : Binary} {p q : ℚ}

theorem rounds_add (hx : x.value? = some p) (hy : y.value? = some q) : (x.add y).Rounds (p + q) := by
  obtain ⟨⟨a, b⟩, hr, rfl⟩ := Option.map_eq_some_iff.1 hx
  obtain ⟨⟨c, d⟩, hs, rfl⟩ := Option.map_eq_some_iff.1 hy
  have hb := den_pos_of_ratio? hr
  have hd := den_pos_of_ratio? hs
  have hsum : (a : ℚ) / b + c / d = ((a * d + c * b : Int) : ℚ) / (b * d : Nat) := by
    have hb' : (b : ℚ) ≠ 0 := by exact_mod_cast hb.ne'
    have hd' : (d : ℚ) ≠ 0 := by exact_mod_cast hd.ne'
    push_cast
    field_simp
  rw [hsum]
  simp only [add, hr, hs]
  exact rounds_ofSigned _ _ (Nat.mul_pos hb hd)

theorem rounds_mul (hx : x.value? = some p) (hy : y.value? = some q) : (x.mul y).Rounds (p * q) := by
  obtain ⟨⟨a, b⟩, hr, rfl⟩ := Option.map_eq_some_iff.1 hx
  obtain ⟨⟨c, d⟩, hs, rfl⟩ := Option.map_eq_some_iff.1 hy
  have hb := den_pos_of_ratio? hr
  have hd := den_pos_of_ratio? hs
  have hproduct : (a : ℚ) / b * (c / d) = ((a * c : Int) : ℚ) / (b * d : Nat) := by
    push_cast
    exact div_mul_div_comm _ _ _ _
  rw [hproduct]
  simp only [mul, hr, hs]
  exact rounds_ofSigned _ _ (Nat.mul_pos hb hd)

theorem add_infinite (hx : x.value? = some p) (negative : Bool) :
    x.add (infinite negative) = infinite negative := by
  obtain ⟨r, hr, -⟩ := Option.map_eq_some_iff.1 hx
  have hnone : (infinite negative).ratio? = none := rfl
  simp only [add, hr, hnone]

/-- What is not huge is rounded to a number that is near it. -/
theorem Rounds.exists_near (h : x.Rounds q) (hq : |q| ≤ 2 ^ 40) :
    ∃ p, x.value? = some p ∧ |p - q| ≤ 1 / 4096 := by
  rcases h with ⟨-, hle⟩ | ⟨p, hp, herr⟩
  · have hlt : (2 : ℚ) ^ (40 : Int) < 2 ^ (1023 : Int) :=
      zpow_lt_zpow_right₀ (by norm_num) (by norm_num)
    exact absurd (hle.trans hq) (not_le.2 hlt)
  · refine ⟨p, hp, herr.trans ?_⟩
    have hsmall : (2 : ℚ) ^ (-1075 : Int) ≤ 2 ^ (-13 : Int) :=
      zpow_le_zpow_right₀ (by norm_num) (by norm_num)
    calc |q| * 2 ^ (-53 : Int) + 2 ^ (-1075 : Int) ≤ 2 ^ 40 * 2 ^ (-53 : Int) + 2 ^ (-13 : Int) := by
          gcongr
      _ = 1 / 4096 := by norm_num

/-- Whatever is rounded keeps its magnitude roughly. -/
theorem Rounds.exists_rough (h : x.Rounds q) :
    x = infinite (decide (q < 0)) ∨ ∃ p, x.value? = some p ∧ |p - q| ≤ |q| / 4 + 1 := by
  rcases h with ⟨he, -⟩ | ⟨p, hp, herr⟩
  · exact .inl he
  · refine .inr ⟨p, hp, herr.trans ?_⟩
    have hsmall : (2 : ℚ) ^ (-1075 : Int) ≤ 2 ^ (0 : Int) :=
      zpow_le_zpow_right₀ (by norm_num) (by norm_num)
    have hpart : (2 : ℚ) ^ (-53 : Int) ≤ 1 / 4 := by norm_num
    rw [zpow_zero] at hsmall
    have hmul := mul_le_mul_of_nonneg_left hpart (abs_nonneg q)
    linarith

end Binary

namespace Number

/-- The exact value of a finite number. -/
def value? (x : Number) : Option ℚ := x.ratio?.map fun r => (r.1 : ℚ) / r.2

theorem value?_int (n : Int) : (int n).value? = some (n : ℚ) := by
  simp [value?, ratio?]

theorem value?_real (x : Binary) : (real x).value? = x.value? := rfl

/-- Numbers compare as their exact values do. -/
theorem atMost_iff {x y : Number} {p q : ℚ} (hx : x.value? = some p) (hy : y.value? = some q) :
    x.atMost y = true ↔ p ≤ q := by
  obtain ⟨⟨a, b⟩, hr, rfl⟩ := Option.map_eq_some_iff.1 hx
  obtain ⟨⟨c, d⟩, hs, rfl⟩ := Option.map_eq_some_iff.1 hy
  have hden : ∀ {z : Number} {r : Int × Nat}, z.ratio? = some r → (0 : ℚ) < r.2 := by
    intro z r h
    cases z with
    | int n =>
      cases h
      simp
    | real z => exact_mod_cast Binary.den_pos_of_ratio? h
  rw [div_le_div_iff₀ (hden hr) (hden hs)]
  simp only [atMost, less, same, hr, hs, Bool.or_eq_true, decide_eq_true_eq, beq_iff_eq]
  rw [← le_iff_lt_or_eq]
  exact_mod_cast Iff.rfl

/-- No number is below all numbers. -/
theorem atMost_infinite {x : Number} {p : ℚ} (hx : x.value? = some p) :
    x.atMost (real (.infinite true)) = false := by
  obtain ⟨r, hr, -⟩ := Option.map_eq_some_iff.1 hx
  have hnone : (real (.infinite true)).ratio? = none := rfl
  have hless : x.toBinary.less (.infinite true) = false := by
    unfold Binary.less
    cases x.toBinary <;> simp [Binary.ratio?]
  simp only [atMost, less, same, hr, hnone, Bool.or_false]
  exact hless

end Number

end VersionedSite
