import Mathlib
import VersionedSite.Proofs.Text.Lowercase
import VersionedSite.Text.Caseless
import VersionedSite.Text.Word

/-!
# Keywords and words of plain letters

A keyword at the head of a word of ASCII letters and digits is the whole word, in whatever case, or it
ends inside of the word, where no word boundary is; it never goes on behind the word
(`spelled?_word_cases`).

* `spelled?_of_toLower`: a keyword is found in every mixture of cases.
* `afterRepeat?_iff`: what repeats a word up to the case of its letters.
-/

namespace VersionedSite.Text

variable {keyword word s t : List Char} {k c : Char}

/-! ## Characters -/

theorem lt_of_isAlphanum (h : c.isAlphanum = true) : c.toNat < 128 := by
  have hZ : 'Z'.val.toNat = 90 := rfl
  have hz : 'z'.val.toNat = 122 := rfl
  have h9 : '9'.val.toNat = 57 := rfl
  simp only [Char.isAlphanum, Char.isAlpha, Char.isUpper, Char.isLower, Char.isDigit, Bool.or_eq_true,
    Bool.and_eq_true, decide_eq_true_eq, ge_iff_le, UInt32.le_iff_toNat_le] at h
  show c.val.toNat < 128
  omega

theorem isAlphanum_of_isAlpha (h : c.isAlpha = true) : c.isAlphanum = true := by
  rw [Char.isAlphanum, h, Bool.true_or]

/-- A character whose lower case is a small letter is a letter. -/
theorem isAlphanum_of_toLower (h : c.toLower.isLower = true) : c.isAlphanum = true :=
  isAlphanum_of_isAlpha (Char.isLower_toLower_eq_isAlpha c ▸ h)

theorem isAlphanum_toLower (h : c.isAlphanum = true) : c.toLower.isAlphanum = true := by
  by_cases hc : c.isUpper = true
  · refine isAlphanum_of_isAlpha ?_
    rw [Char.isAlpha_toLower_eq_isAlpha, Char.isAlpha, hc, Bool.true_or]
  · rwa [Char.toLower_eq_of_not_isUpper hc]

theorem map_toLower_map_toLower (s : List Char) :
    (s.map Char.toLower).map Char.toLower = s.map Char.toLower := by
  rw [List.map_map]
  exact List.map_congr_left fun c _ => Char.toLower_toLower_eq_toLower c

theorem toLower_of_isLower (h : k.isLower = true) : k.toLower = k :=
  Char.toLower_eq_of_not_isUpper (Char.not_isUpper_of_isLower h)

theorem lowerOne_of_isAlphanum (h : c.isAlphanum = true) : lowerOne c = c.toLower :=
  lowerOne_ascii (lt_of_isAlphanum h)

theorem isWord_of_isAlphanum (h : c.isAlphanum = true) : isWord c = true := by
  rw [isWord_ascii (lt_of_isAlphanum h), h, Bool.true_or]

theorem isWord_of_isBlank (h : isBlank c = true) : isWord c = false := by
  have hall : ∀ n ∈ blankCodes, isWord (Char.ofNat n) = false := by decide +kernel
  have hc := hall _ (mem_blankCodes h)
  rwa [Char.ofNat_toNat] at hc

theorem any_isWord_getLast? (hne : word ≠ []) (hword : ∀ c ∈ word, isWord c = true) :
    word.getLast?.any isWord = true := by
  rw [List.getLast?_eq_some_getLast hne, Option.any_some]
  exact hword _ (List.getLast_mem hne)

/-- A word ends where no word character follows. -/
theorem wordBoundary_of_word (hne : word ≠ []) (hword : ∀ c ∈ word, isWord c = true)
    (hs : ∀ c, s.head? = some c → isWord c = false) : wordBoundary word.getLast? s.head? = true := by
  have hhead : s.head?.any isWord = false := by
    cases h : s.head? with
    | none => rfl
    | some c => exact hs c h
  rw [wordBoundary, any_isWord_getLast? hne hword, hhead]
  rfl

theorem caseless_of_toLower (h : c.toLower = k) : caseless k c = true := by
  simp [caseless, h]

/-- Among the ASCII characters only a letter's own two cases stand for it. -/
theorem toLower_of_caseless (h : caseless k c = true) (hk : k.isLower = true) (hc : c.toNat < 128) :
    c.toLower = k := by
  simp only [caseless, Bool.or_eq_true, Bool.and_eq_true, beq_iff_eq] at h
  rcases h with (((rfl | h) | ⟨-, rfl | rfl⟩) | ⟨-, rfl⟩) | ⟨-, rfl⟩
  · exact toLower_of_isLower hk
  · exact h
  all_goals exact absurd hc (by decide)

theorem isWord_of_caseless (h : caseless k c = true) (hk : k.isLower = true) : isWord c = true := by
  simp only [caseless, Bool.or_eq_true, Bool.and_eq_true, beq_iff_eq] at h
  rcases h with (((rfl | h) | ⟨-, rfl | rfl⟩) | ⟨-, rfl⟩) | ⟨-, rfl⟩
  · exact isWord_of_isAlphanum (isAlphanum_of_toLower ((toLower_of_isLower hk).symm ▸ hk))
  · exact isWord_of_isAlphanum (isAlphanum_of_toLower (h ▸ hk))
  all_goals decide +kernel

/-! ## Keywords -/

theorem spelled?_of_toLower (h : word.map Char.toLower = keyword) (s : List Char) :
    spelled? keyword (word ++ s) = some (word, s) := by
  subst h
  induction word with
  | nil => cases s <;> rfl
  | cons c word ih =>
    rw [List.map_cons, List.cons_append, spelled?, if_pos (caseless_of_toLower rfl), ih]
    rfl

theorem eq_append_of_spelled? {keyword s word rest : List Char}
    (h : spelled? keyword s = some (word, rest)) : s = word ++ rest := by
  fun_induction spelled? keyword s generalizing word with
  | case1 s => cases h; rfl
  | case2 => cases h
  | case3 k keyword c s _ ih =>
    obtain ⟨⟨w, r⟩, hspelled, he⟩ := Option.map_eq_some_iff.1 h
    cases he
    rw [ih hspelled, List.cons_append]
  | case4 => cases h

theorem suffix_of_afterCaseless? {keyword s rest : List Char} (h : afterCaseless? keyword s = some rest) :
    rest <:+ s := by
  obtain ⟨⟨word, r⟩, hspelled, rfl⟩ := Option.map_eq_some_iff.1 h
  exact eq_append_of_spelled? hspelled ▸ List.suffix_append _ _

theorem spelled?_append_right {rest : List Char} (h : spelled? keyword s = some (word, rest))
    (t : List Char) : spelled? keyword (s ++ t) = some (word, rest ++ t) := by
  fun_induction spelled? keyword s generalizing word with
  | case1 s =>
    cases h
    exact spelled?_append [] _
  | case2 => cases h
  | case3 k keyword c s hc ih =>
    obtain ⟨⟨w, r⟩, hspelled, he⟩ := Option.map_eq_some_iff.1 h
    cases he
    rw [List.cons_append, spelled?, if_pos hc, ih hspelled]
    rfl
  | case4 => cases h

theorem afterCaseless?_append_right {rest : List Char} (h : afterCaseless? keyword s = some rest)
    (t : List Char) : afterCaseless? keyword (s ++ t) = some (rest ++ t) := by
  obtain ⟨⟨word, r⟩, hspelled, rfl⟩ := Option.map_eq_some_iff.1 h
  rw [afterCaseless?, spelled?_append_right hspelled]
  rfl

theorem spelling_of_spelled? (h : spelled? keyword s = some (word, t)) :
    List.Forall₂ (fun k c => caseless k c = true) keyword word := by
  fun_induction spelled? keyword s generalizing word with
  | case1 s =>
    cases h
    exact .nil
  | case2 => cases h
  | case3 k keyword c s hc ih =>
    obtain ⟨⟨w, r⟩, hspelled, he⟩ := Option.map_eq_some_iff.1 h
    cases he
    exact .cons hc (ih hspelled)
  | case4 => cases h

theorem map_toLower_of_spelling (h : List.Forall₂ (fun k c => caseless k c = true) keyword word)
    (hkey : ∀ k ∈ keyword, k.isLower = true) (hword : ∀ c ∈ word, c.isAlphanum = true) :
    word.map Char.toLower = keyword := by
  induction h with
  | nil => rfl
  | cons hc _ ih =>
    rw [List.forall_mem_cons] at hkey hword
    rw [List.map_cons, toLower_of_caseless hc hkey.1 (lt_of_isAlphanum hword.1), ih hkey.2 hword.2]

theorem isWord_of_spelling (h : List.Forall₂ (fun k c => caseless k c = true) keyword word)
    (hkey : ∀ k ∈ keyword, k.isLower = true) : ∀ c ∈ word, isWord c = true := by
  induction h with
  | nil => simp
  | cons hc _ ih =>
    rw [List.forall_mem_cons] at hkey ⊢
    exact ⟨isWord_of_caseless hc hkey.1, ih hkey.2⟩

/-- Where a keyword ends that is found at the head of a word. -/
theorem spelled?_word_cases (hkey : ∀ k ∈ keyword, k.isLower = true)
    (hword : ∀ c ∈ word, c.isAlphanum = true) (hs : ∀ c, s.head? = some c → isWord c = false)
    {found rest : List Char} (h : spelled? keyword (word ++ s) = some (found, rest)) :
    word.map Char.toLower = keyword ∨ ∃ c more, c.isAlphanum = true ∧ rest = c :: more := by
  have hfound := spelling_of_spelled? h
  rcases List.append_eq_append_iff.1 (eq_append_of_spelled? h) with ⟨behind, rfl, hbehind⟩ | ⟨inside, rfl, rfl⟩
  · cases behind with
    | nil =>
      rw [List.append_nil] at hfound
      exact .inl (map_toLower_of_spelling hfound hkey hword)
    | cons c behind =>
      -- The keyword would have to go on with the character behind the word.
      have hc := isWord_of_spelling hfound hkey c (List.mem_append_right _ List.mem_cons_self)
      cases hc.symm.trans (hs c (hbehind ▸ rfl))
  · cases inside with
    | nil => exact .inl (map_toLower_of_spelling (by rwa [List.append_nil]) hkey hword)
    | cons c inside =>
      exact .inr ⟨c, inside ++ s, hword c (List.mem_append_right _ List.mem_cons_self), rfl⟩

/-! ## Repetitions -/

theorem afterRepeat?_iff : afterRepeat? word s = some t ↔
    ∃ again, again.map lowerOne = word.map lowerOne ∧ s = again ++ t := by
  induction word generalizing s with
  | nil => cases s <;> simp [afterRepeat?, eq_comm]
  | cons w word ih =>
    cases s with
    | nil => simp [afterRepeat?]
    | cons c s =>
      rw [afterRepeat?]
      constructor
      · intro h
        split at h
        · rename_i hc
          obtain ⟨again, hagain, rfl⟩ := ih.1 h
          exact ⟨c :: again, by rw [List.map_cons, hagain, beq_iff_eq.1 hc, List.map_cons], rfl⟩
        · cases h
      · rintro ⟨again, hagain, he⟩
        obtain ⟨d, more, rfl, hd, hmore⟩ := List.map_eq_cons_iff.1 hagain
        obtain ⟨rfl, rfl⟩ := List.cons.inj he
        rw [if_pos (beq_iff_eq.2 hd)]
        exact ih.2 ⟨more, hmore, rfl⟩

end VersionedSite.Text
