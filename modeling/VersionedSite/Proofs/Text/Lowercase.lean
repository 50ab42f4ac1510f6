import Mathlib.Data.List.Infix
import VersionedSite.Proofs.Text.Trim
import VersionedSite.Text.Lowercase

/-!
# What a text ends in, in lower case

Lower case goes character by character but for the dotted capital I and the capital sigma. An ending
that comes from neither of them is the lower case of the last characters of the text, whatever stands
before them (`suffix_lower_iff`). Among the texts with a lower case of characters below 128 and without a k
the lower case itself comes last (`not_lower_lt`). Cutting a text makes its lower case shorter
(`length_lower_take_lt`).
-/

namespace VersionedSite.Text

variable {ending before s t : List Char} {c : Char}

/-- Whether the lower case of a character is one character, wherever it stands. -/
def isRegular (c : Char) : Bool := c != 'İ' && c != 'Σ'

/-- Whether a character comes from none whose lower case is not one character. -/
def comesFromRegular (c : Char) : Bool := c != '\u0307' && c != 'ς' && c != 'σ'

theorem lowerBetween_of_isRegular (h : isRegular c = true) (before after : List Char) :
    lowerBetween before c after = [lowerOne c] := by
  simp only [isRegular, Bool.and_eq_true, bne_iff_ne] at h
  simp [lowerBetween, h.1, h.2]

/-- The lower case of a character ends in one that tells where it comes from. -/
theorem lowerBetween_of_not_isRegular (h : isRegular c = false) (before after : List Char) :
    ∃ lead last, lowerBetween before c after = lead ++ [last] ∧ comesFromRegular last = false := by
  unfold lowerBetween
  split
  · exact ⟨['i'], '\u0307', rfl, by decide⟩
  · rename_i hI
    split
    · refine ⟨[], _, rfl, ?_⟩
      split <;> decide
    · rename_i hS
      exact absurd h (by simp_all [isRegular])

theorem lowerAfter_of_isRegular (h : ∀ c ∈ s, isRegular c = true) : lowerAfter before s = s.map lowerOne := by
  induction s generalizing before with
  | nil => rfl
  | cons c s ih =>
    rw [List.forall_mem_cons] at h
    rw [lowerAfter, lowerBetween_of_isRegular h.1, ih h.2]
    rfl

theorem isRegular_of_lowerAfter (h : ∀ d ∈ lowerAfter before s, comesFromRegular d = true) :
    ∀ c ∈ s, isRegular c = true := by
  induction s generalizing before with
  | nil => simp
  | cons c s ih =>
    rw [lowerAfter, List.forall_mem_append] at h
    refine List.forall_mem_cons.2 ⟨?_, ih h.2⟩
    cases hc : isRegular c with
    | true => rfl
    | false =>
      obtain ⟨lead, last, he, hlast⟩ := lowerBetween_of_not_isRegular hc before s
      rw [he] at h
      exact hlast.symm.trans (h.1 last (by simp))

theorem suffix_lowerAfter (hst : t <:+ s) (ht : ∀ c ∈ t, isRegular c = true) :
    t.map lowerOne <:+ lowerAfter before s := by
  obtain ⟨u, rfl⟩ := hst
  induction u generalizing before with
  | nil => rw [List.nil_append, lowerAfter_of_isRegular ht]
  | cons c u ih =>
    rw [List.cons_append, lowerAfter]
    exact ih.trans (List.suffix_append _ _)

theorem exists_suffix_of_lowerAfter (he : ∀ d ∈ ending, comesFromRegular d = true)
    (h : ending <:+ lowerAfter before s) :
    ∃ t, t <:+ s ∧ (∀ c ∈ t, isRegular c = true) ∧ t.map lowerOne = ending := by
  induction s generalizing before with
  | nil => exact ⟨[], List.suffix_rfl, by simp, (List.suffix_nil.1 h).symm⟩
  | cons c s ih =>
    by_cases hrest : ending <:+ lowerAfter (c :: before) s
    · obtain ⟨t, hts, ht, hmap⟩ := ih hrest
      exact ⟨t, hts.trans (List.suffix_cons _ _), ht, hmap⟩
    · -- The ending reaches into the first character, so it holds all the rest.
      obtain ⟨lead, hlead⟩ : lowerAfter (c :: before) s <:+ ending := by
        rw [lowerAfter] at h
        exact (List.suffix_or_suffix_of_suffix h (List.suffix_append _ _)).resolve_left hrest
      have hs : ∀ d ∈ s, isRegular d = true :=
        isRegular_of_lowerAfter fun d hd => he d (hlead ▸ List.mem_append_right _ hd)
      have hne : lead ≠ [] := by
        rintro rfl
        exact hrest (hlead ▸ List.suffix_rfl)
      rw [← hlead, lowerAfter, List.suffix_append_self_iff] at h
      cases hc : isRegular c with
      | true =>
        rw [lowerBetween_of_isRegular hc, List.suffix_cons_iff, List.suffix_nil, or_iff_left hne] at h
        refine ⟨c :: s, List.suffix_rfl, List.forall_mem_cons.2 ⟨hc, hs⟩, ?_⟩
        rw [← hlead, h, lowerAfter_of_isRegular hs]
        rfl
      | false =>
        obtain ⟨first, last, hb, hlast⟩ := lowerBetween_of_not_isRegular hc before s
        rw [hb, List.suffix_concat_iff, or_iff_right hne] at h
        obtain ⟨t, rfl, -⟩ := h
        have hmem : last ∈ ending := by simp [← hlead]
        cases hlast.symm.trans (he last hmem)

/-- What the lower case of a text ends in is the lower case of what the text ends in. -/
theorem suffix_lower_iff (he : ∀ d ∈ ending, comesFromRegular d = true) :
    ending <:+ lower s ↔ ∃ t, t <:+ s ∧ (∀ c ∈ t, isRegular c = true) ∧ t.map lowerOne = ending := by
  refine ⟨exists_suffix_of_lowerAfter he, ?_⟩
  rintro ⟨t, hts, ht, rfl⟩
  exact suffix_lowerAfter hts ht

/-! ## Lengths -/

theorem length_lowerBetween (before before' after after' : List Char) (c : Char) :
    (lowerBetween before c after).length = (lowerBetween before' c after').length := by
  simp only [lowerBetween]
  split
  · rfl
  · split <;> rfl

/-- How many characters a text has in lower case does not depend on what stands before it. -/
theorem length_lowerAfter (before before' s : List Char) :
    (lowerAfter before s).length = (lowerAfter before' s).length := by
  induction s generalizing before before' with
  | nil => rfl
  | cons c s ih =>
    rw [lowerAfter, lowerAfter, List.length_append, List.length_append,
      length_lowerBetween before before' s s, ih (c :: before) (c :: before')]

theorem length_lower_append (s t : List Char) :
    (lower (s ++ t)).length = (lower s).length + (lower t).length := by
  suffices h : ∀ before, (lowerAfter before (s ++ t)).length =
      (lowerAfter before s).length + (lower t).length from h []
  induction s with
  | nil =>
    intro before
    rw [List.nil_append, lowerAfter, List.length_nil, Nat.zero_add]
    exact length_lowerAfter before [] t
  | cons c s ih =>
    intro before
    rw [List.cons_append, lowerAfter, lowerAfter, List.length_append, List.length_append, ih,
      length_lowerBetween before before (s ++ t) s, Nat.add_assoc]

theorem lower_ne_nil (hs : s ≠ []) : lower s ≠ [] := by
  intro h
  cases s with
  | nil => exact hs rfl
  | cons c rest =>
    have hc : lowerBetween [] c rest = [] := (List.append_eq_nil_iff.1 h).1
    cases hr : isRegular c with
    | true => simp [lowerBetween_of_isRegular hr] at hc
    | false =>
      obtain ⟨lead, last, he, -⟩ := lowerBetween_of_not_isRegular hr [] rest
      simp [he] at hc

/-- What is cut off at the end of a text makes its lower case shorter. -/
theorem length_lower_take_lt {n : Nat} (h : n < s.length) : (lower (s.take n)).length < (lower s).length := by
  have hne : lower (s.drop n) ≠ [] := lower_ne_nil (by simpa using h)
  have hsum := length_lower_append (s.take n) (s.drop n)
  rw [List.take_append_drop] at hsum
  rw [hsum]
  exact Nat.lt_add_of_pos_right (List.length_pos_of_ne_nil hne)

/-! ## Texts that differ in case -/

/-- No run reaches into the surrogates, and only that of the Kelvin sign reaches below 128. -/
theorem target_of_mem_lowerRuns : ∀ r ∈ lowerRuns,
    (128 ≤ r.target ∨ r.first = r.last ∧ r.target = 'k'.toNat) ∧
      (r.target + (r.last - r.first) < 0xd800 ∨
        0xdfff < r.target ∧ r.target + (r.last - r.first) < 0x110000) := by
  decide +kernel

/-- A character whose lower case is one below 128, and no k, is below 128 itself. -/
theorem lt_of_lowerOne (hr : isRegular c = true) (hd : (lowerOne c).toNat < 128)
    (hk : lowerOne c ≠ 'k') : c.toNat < 128 := by
  by_contra hc
  have hI : c ≠ 'İ' := by
    rintro rfl
    cases hr
  simp only [lowerOne, if_neg hc, beq_iff_eq, hI, if_false] at hd hk
  cases hrun : lowerRuns.findSome? (·.image? c.toNat) with
  | none =>
    rw [hrun] at hd
    exact hc hd
  | some n =>
    obtain ⟨r, hr, hn⟩ := List.exists_of_findSome?_eq_some hrun
    rw [CaseRun.image?, Option.ite_none_right_eq_some, Option.some.injEq] at hn
    obtain ⟨hin, rfl⟩ := hn
    simp only [Bool.and_eq_true, decide_eq_true_eq] at hin
    obtain ⟨htarget, hvalid⟩ := target_of_mem_lowerRuns r hr
    have hchar : (Char.ofNat (c.toNat - r.first + r.target)).toNat = c.toNat - r.first + r.target := by
      have hscalar : (c.toNat - r.first + r.target).isValidChar := by
        unfold Nat.isValidChar
        omega
      rw [Char.ofNat, dif_pos hscalar]
      rfl
    rw [hrun, Option.elim_some] at hd hk
    rw [hchar] at hd
    rcases htarget with htarget | ⟨hone, htarget⟩
    · omega
    · have hkelvin : c.toNat - r.first + r.target = 'k'.toNat := by omega
      rw [hkelvin, Char.ofNat_toNat] at hk
      exact hk rfl

theorem le_lowerOne (h : c.toNat < 128) : c ≤ lowerOne c := by
  have hall : ∀ n < 128, Char.ofNat n ≤ lowerOne (Char.ofNat n) := by decide +kernel
  have hc := hall _ h
  rwa [Char.ofNat_toNat] at hc

theorem not_map_lowerOne_lt (h : ∀ c ∈ s, c ≤ lowerOne c) : ¬s.map lowerOne < s := by
  induction s with
  | nil => exact List.not_lt_nil _
  | cons c s ih =>
    rw [List.forall_mem_cons] at h
    rw [List.map_cons, List.cons_lt_cons_iff, not_or]
    exact ⟨Char.not_lt.2 h.1, fun hlt => ih h.2 hlt.2⟩

/-- A text comes no later than its lower case, if that is of characters below 128 without a k. -/
theorem not_lower_lt (h : ∀ d ∈ lower s, d.toNat < 128 ∧ d ≠ 'k') : ¬lower s < s := by
  have hcomes : ∀ d ∈ lower s, comesFromRegular d = true := by
    intro d hd
    have hlt := (h d hd).1
    simp only [comesFromRegular, Bool.and_eq_true, bne_iff_ne]
    refine ⟨⟨?_, ?_⟩, ?_⟩ <;> rintro rfl <;> exact absurd hlt (by decide)
  have hregular : ∀ c ∈ s, isRegular c = true := isRegular_of_lowerAfter hcomes
  have hmap : lower s = s.map lowerOne := lowerAfter_of_isRegular hregular
  rw [hmap] at h ⊢
  refine not_map_lowerOne_lt fun c hc => le_lowerOne ?_
  obtain ⟨hlt, hk⟩ := h _ (List.mem_map_of_mem hc)
  exact lt_of_lowerOne (hregular c hc) hlt hk

/-! ## Blanks -/

/-- The code points of blanks. -/
def blankCodes : List Nat :=
  [9, 10, 11, 12, 13, 28, 29, 30, 31, 32, 0x85, 0xa0, 0x1680, 0x2000, 0x2001, 0x2002, 0x2003, 0x2004,
    0x2005, 0x2006, 0x2007, 0x2008, 0x2009, 0x200a, 0x2028, 0x2029, 0x202f, 0x205f, 0x3000]

theorem mem_blankCodes (h : isBlank c = true) : c.toNat ∈ blankCodes := by
  simp only [isBlank, Bool.or_eq_true, Bool.and_eq_true, decide_eq_true_eq, beq_iff_eq] at h
  simp only [blankCodes, List.mem_cons, List.not_mem_nil]
  omega

theorem isBlank_lowerOne (h : isBlank c = true) : isBlank (lowerOne c) = true := by
  have hall : ∀ n ∈ blankCodes, isBlank (lowerOne (Char.ofNat n)) = true := by decide +kernel
  have hc := hall _ (mem_blankCodes h)
  rwa [Char.ofNat_toNat] at hc

/-- An ending without blanks is not changed by trimming. -/
theorem suffix_lower_trim (he : ∀ d ∈ ending, comesFromRegular d = true)
    (hblank : ∀ d ∈ ending, isBlank d = false) (h : ending <:+ lower s) : ending <:+ lower (trim s) := by
  rw [suffix_lower_iff he] at h ⊢
  obtain ⟨t, hts, ht, rfl⟩ := h
  refine ⟨t, suffix_trim hts fun c hc => ?_, ht, rfl⟩
  cases hb : isBlank c with
  | false => rfl
  | true =>
    have hsolid := hblank _ (List.mem_map_of_mem hc)
    rw [isBlank_lowerOne hb] at hsolid
    cases hsolid

end VersionedSite.Text
