import VersionedSite.Proofs.Number.Rounding

/-!
# Whole numbers in double precision

Whole numbers of up to 53 bits are exact in double precision, and so are their sums and products as long
as these have no more bits.

* `value?_ofSigned`: a ratio that is such a number is not rounded.
* `value?_add`, `value?_mul`: neither is a sum or a product that is one.
* `truncate?_eq`: a whole value is its own whole part.
* `lt_truncate?_add_one`: any other is less than one away from it.
-/

namespace VersionedSite

namespace Binary

theorem roundRatio_of_mul (n : Nat) {den : Nat} (hd : 0 < den) : roundRatio (n * den) den = n := by
  simp [roundRatio, Nat.mul_div_cancel n hd, hd]

/-- A whole number of up to 53 bits has an exponent that is not positive. -/
theorem exponentFor_le_zero {n den : Nat} (hn : 0 < n) (hlt : n < 2 ^ 53) (hd : 0 < den) :
    exponentFor (n * den) den ≤ 0 := by
  have hden : (den : ℚ) ≠ 0 := by exact_mod_cast hd.ne'
  have hvalue : ((n * den : Nat) / den : ℚ) = n := by
    push_cast
    field_simp
  obtain ⟨-, hleast | hle⟩ := exponentFor_spec (Nat.mul_pos hn hd) hd
  · rw [hleast]
    decide
  · rw [hvalue] at hle
    have hltq : (n : ℚ) < 2 ^ (53 : Int) := by exact_mod_cast hlt
    by_contra hpos
    have hone : (1 : Int) ≤ exponentFor (n * den) den := by omega
    have hpow : (2 : ℚ) ^ (1 : Int) ≤ 2 ^ exponentFor (n * den) den :=
      zpow_le_zpow_right₀ (by norm_num) hone
    have hbig : (2 : ℚ) ^ (53 : Int) ≤ 2 ^ (52 : Int) * 2 ^ exponentFor (n * den) den := by
      calc (2 : ℚ) ^ (53 : Int) = 2 ^ (52 : Int) * 2 ^ (1 : Int) := by norm_num
        _ ≤ _ := by gcongr
    exact absurd (hbig.trans hle) (not_le.2 hltq)

/-- A whole number of up to 53 bits is not rounded. -/
theorem value?_ofRatio (negative : Bool) {n den : Nat} (hlt : n < 2 ^ 53) (hd : 0 < den) :
    (ofRatio negative (n * den) den).value? = some ((if negative then -1 else 1) * (n : ℚ)) := by
  obtain rfl | hn := Nat.eq_zero_or_pos n
  · simp [value?_finite]
  have hne : n * den ≠ 0 := (Nat.mul_pos hn hd).ne'
  have hzero := exponentFor_le_zero hn hlt hd
  obtain ⟨k, hk⟩ : ∃ k : Nat, exponentFor (n * den) den = -(k : Int) :=
    ⟨(-exponentFor (n * den) den).toNat, by omega⟩
  have hscaled : scaled (n * den) den (-(k : Int)) = (n * 2 ^ k * den, den) := by
    unfold scaled
    by_cases hk0 : k = 0
    · simp [hk0]
    · rw [if_neg (by omega), neg_neg, Int.toNat_natCast, Nat.pow_eq, Nat.mul_right_comm]
  have hsmall : n * 2 ^ k < 2 ^ 53 := by
    have hbound := (exponentFor_spec (Nat.mul_pos hn hd) hd).1
    have hden : (den : ℚ) ≠ 0 := by exact_mod_cast hd.ne'
    rw [hk, zpow_neg, zpow_natCast, Nat.cast_mul, mul_div_cancel_right₀ _ hden,
      ← div_eq_mul_inv, lt_div_iff₀ (by positivity)] at hbound
    exact_mod_cast hbound
  have hfinite : ofRatio negative (n * den) den = finite negative (n * 2 ^ k) (-(k : Int)) := by
    have hgreatest : ¬ -(k : Int) > greatestExponent := by
      unfold greatestExponent
      omega
    simp only [ofRatio, hne, if_false, hk, hscaled, roundRatio_of_mul _ hd, Nat.pow_eq, hsmall.ne,
      hgreatest]
  rw [hfinite, value?_finite, zpow_neg, zpow_natCast]
  push_cast
  rw [mul_assoc (n : ℚ), mul_inv_cancel₀ (by positivity), mul_one]

/-- A ratio that is a whole number of up to 53 bits is not rounded. -/
theorem value?_ofSigned (zeroNegative : Bool) {n num : Int} {den : Nat} (hlt : |n| < 2 ^ 53)
    (hd : 0 < den) (hnum : num = n * den) : (ofSigned zeroNegative num den).value? = some (n : ℚ) := by
  unfold ofSigned
  by_cases hn : n = 0
  · simp [hnum, hn, value?_finite]
  have hden : (0 : Int) < den := by exact_mod_cast hd
  have hnz : num ≠ 0 := hnum ▸ mul_ne_zero hn hden.ne'
  have habs : num.natAbs = n.natAbs * den := by rw [hnum, Int.natAbs_mul, Int.natAbs_natCast]
  have hsign : num < 0 ↔ n < 0 := by rw [hnum, mul_neg_iff]; omega
  have hbits : n.natAbs < 2 ^ 53 := by
    rw [Int.abs_eq_natAbs] at hlt
    exact_mod_cast hlt
  rw [if_neg hnz, habs, value?_ofRatio _ hbits hd]
  congr 1
  by_cases hneg : n < 0
  · rw [decide_eq_true (hsign.2 hneg), if_pos rfl, Nat.cast_natAbs, abs_of_neg hneg]
    push_cast
    ring
  · rw [decide_eq_false (hsign.not.2 hneg), if_neg Bool.false_ne_true, Nat.cast_natAbs,
      abs_of_nonneg (not_lt.1 hneg), one_mul]

theorem value?_ofInt {n : Int} (hlt : |n| < 2 ^ 53) : (ofInt n).value? = some (n : ℚ) := by
  rw [ofInt_eq]
  exact value?_ofSigned false hlt Nat.one_pos (by simp)

variable {x y : Binary} {m n : Int}

/-- A whole value is a numerator that the denominator divides. -/
theorem exists_ratio?_of_whole (h : x.value? = some (n : ℚ)) :
    ∃ den : Nat, 0 < den ∧ x.ratio? = some (n * den, den) := by
  obtain ⟨⟨num, den⟩, hr, hq⟩ := Option.map_eq_some_iff.1 h
  have hd := den_pos_of_ratio? hr
  have hden : (den : ℚ) ≠ 0 := by exact_mod_cast hd.ne'
  refine ⟨den, hd, hr.trans ?_⟩
  have hnum : (num : ℚ) = n * den := (div_eq_iff hden).1 hq
  have hint : num = n * den := by exact_mod_cast hnum
  rw [hint]

theorem truncate?_eq (h : x.value? = some (n : ℚ)) : x.truncate? = some n := by
  obtain ⟨den, hd, hr⟩ := exists_ratio?_of_whole h
  have hden : (den : Int) ≠ 0 := by exact_mod_cast hd.ne'
  rw [truncate?, hr]
  exact congrArg some (Int.mul_tdiv_cancel _ hden)

/-- A whole part is less than one away. -/
theorem lt_truncate?_add_one {p : ℚ} (hx : x.value? = some p) (hp : 0 ≤ p) (h : x.truncate? = some n) :
    p < n + 1 := by
  obtain ⟨⟨a, b⟩, hr, rfl⟩ := Option.map_eq_some_iff.1 hx
  have hb := den_pos_of_ratio? hr
  have hden : (0 : ℚ) < b := by exact_mod_cast hb
  have hnum : 0 ≤ a := by
    rw [le_div_iff₀ hden, zero_mul] at hp
    exact_mod_cast hp
  have hpart : a / b = n := by
    rw [truncate?, hr] at h
    exact (Int.tdiv_eq_ediv_of_nonneg hnum).symm.trans (Option.some.inj h)
  have hlt : a < (n + 1) * b := hpart ▸ Int.lt_ediv_add_one_mul_self a (by exact_mod_cast hb)
  rw [div_lt_iff₀ hden]
  exact_mod_cast hlt

theorem value?_add (hx : x.value? = some (m : ℚ)) (hy : y.value? = some (n : ℚ))
    (hlt : |m + n| < 2 ^ 53) : (x.add y).value? = some ((m + n : Int) : ℚ) := by
  obtain ⟨b, hb, hr⟩ := exists_ratio?_of_whole hx
  obtain ⟨d, hd, hs⟩ := exists_ratio?_of_whole hy
  simp only [add, hr, hs]
  refine value?_ofSigned _ hlt (Nat.mul_pos hb hd) ?_
  push_cast
  ring

theorem value?_mul (hx : x.value? = some (m : ℚ)) (hy : y.value? = some (n : ℚ))
    (hlt : |m * n| < 2 ^ 53) : (x.mul y).value? = some ((m * n : Int) : ℚ) := by
  obtain ⟨b, hb, hr⟩ := exists_ratio?_of_whole hx
  obtain ⟨d, hd, hs⟩ := exists_ratio?_of_whole hy
  simp only [mul, hr, hs]
  refine value?_ofSigned _ hlt (Nat.mul_pos hb hd) ?_
  push_cast
  ring

end Binary

end VersionedSite
