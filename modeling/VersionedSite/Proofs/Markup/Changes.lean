import VersionedSite.Proofs.Markup.Closing
import VersionedSite.Proofs.Markup.Stability

/-!
# Changes are reported

A validation tells of a fix exactly if what comes out is not the text that was given in, up to the blanks at
its ends (`fixes_eq_nil_iff`). A text of which nothing is told has passed through unchanged; for the other
direction, no changes may cancel out. What a repair puts in has no backticks (`count_repair_le`), so that it
never makes up for a fence. And a repair of which something is told leaves another text (`repair_fixes`):
closing elements and putting a document type in front make a text longer, and a text that was wrapped has
a document root, which it had not.
-/

namespace VersionedSite.Markup

open Text

variable {code raw : List Char} {structure_ : Structure} {limit : Int}

/-! ## Backticks -/

theorem isNameChar_toLower {c : Char} (h : isNameChar c = true) : isNameChar c.toLower = true := by
  simp only [isNameChar, Bool.or_eq_true, beq_iff_eq] at h ⊢
  rcases h with (h | rfl) | rfl
  · exact .inl (.inl (isAlphanum_toLower h))
  · exact .inl (.inr rfl)
  · exact .inr rfl

theorem isNameChar_of_tagBody? {closing : Bool} {s rest : List Char} {t : Tag}
    (h : tagBody? closing s = some (t, rest)) : ∀ c ∈ t.name, isNameChar c = true := by
  cases s with
  | nil => cases h
  | cons first s =>
    rw [tagBody?] at h
    split at h
    · rename_i hfirst
      obtain ⟨found, -, he⟩ := Option.map_eq_some_iff.1 h
      cases he
      intro c hc
      obtain ⟨d, hd, rfl⟩ := List.mem_map.1 hc
      refine isNameChar_toLower ?_
      rcases List.mem_cons.1 hd with rfl | hd
      · simp [isNameChar, isAlphanum_of_isAlpha hfirst]
      · exact List.mem_takeWhile_imp hd
    · cases h

theorem isNameChar_of_tag? {s rest : List Char} {t : Tag} (h : tag? s = some (t, rest)) :
    ∀ c ∈ t.name, isNameChar c = true := by
  unfold tag? at h
  split at h
  · exact isNameChar_of_tagBody? h
  · exact isNameChar_of_tagBody? h
  · cases h

theorem isNameChar_of_mem_unclosed {name : List Char} (h : name ∈ unclosed code) :
    ∀ c ∈ name, isNameChar c = true := by
  rcases mem_openAfter (List.mem_reverse.1 h) with hnil | ⟨t, ht, -, rfl⟩
  · cases hnil
  · obtain ⟨u, rest, hu⟩ := exists_of_mem_findings ht
    exact isNameChar_of_tag? hu

theorem backtick_not_mem_endTags (code : List Char) :
    '`' ∉ ((unclosed code).reverse.map endTag).flatten := by
  intro h
  obtain ⟨part, hpart, hmem⟩ := List.mem_flatten.1 h
  obtain ⟨name, hname, rfl⟩ := List.mem_map.1 hpart
  have hinside : '`' ∈ name := by simpa [endTag] using hmem
  cases isNameChar_of_mem_unclosed (List.mem_reverse.1 hname) '`' hinside

theorem suffix_of_doctypeDeclaration? {s rest : List Char}
    (h : doctypeDeclaration? s = some ((), rest)) : rest <:+ s := by
  obtain ⟨behind, hbehind, h⟩ := Option.bind_eq_some_iff.1 h
  obtain ⟨r, hr, he⟩ := Option.map_eq_some_iff.1 h
  obtain ⟨⟨before, rest'⟩, hbreak, rfl⟩ := Option.map_eq_some_iff.1 hr
  cases he
  have hrest : rest' <:+ behind := eq_append_of_breakOn? hbreak ▸ List.suffix_append _ _
  exact (trimStart_suffix rest').trans (hrest.trans (suffix_of_afterCaseless? hbehind))

theorem sublist_withoutFirst (r : Recogniser Unit)
    (hr : ∀ s rest, r s = some ((), rest) → rest <:+ s) (s : List Char) :
    (withoutFirst r s).Sublist s := by
  induction s with
  | nil => exact List.Sublist.refl _
  | cons c s ih =>
    rw [withoutFirst]
    split
    · rename_i found
      exact (hr _ _ found).sublist
    · exact ih.cons_cons c

theorem count_closeOpen_le (code : List Char) : (closeOpen code).1.count '`' ≤ code.count '`' := by
  rw [closeOpen_fst, List.count_append, List.count_eq_zero.2 (backtick_not_mem_endTags code)]
  exact Nat.le_refl _

theorem count_wrapRoot_le (code : List Char) : (wrapRoot code).1.count '`' ≤ code.count '`' := by
  unfold wrapRoot
  split
  · exact Nat.le_refl _
  · have hle := ((sublist_trim _).trans
      (sublist_withoutFirst doctypeDeclaration? (fun _ _ => suffix_of_doctypeDeclaration?) code)).count_le '`'
    have hlead : "<html>\n".toList.count '`' = 0 := rfl
    have hend : "\n</html>".toList.count '`' = 0 := rfl
    dsimp only
    rw [List.count_append, List.count_append, hlead, hend]
    omega

theorem count_addDoctype_le (code : List Char) : (addDoctype code).1.count '`' ≤ code.count '`' := by
  unfold addDoctype
  split
  · exact Nat.le_refl _
  · have hlead : "<!DOCTYPE html>\n".toList.count '`' = 0 := rfl
    dsimp only
    rw [List.count_append, hlead]
    omega

theorem count_repair_le (code : List Char) (structure_ : Structure) :
    (repair code structure_).1.count '`' ≤ code.count '`' := by
  cases structure_ with
  | fragment => exact count_closeOpen_le code
  | document =>
    rw [repair_document]
    exact (count_addDoctype_le _).trans ((count_wrapRoot_le _).trans (count_closeOpen_le code))

/-! ## Repairs that leave a text as it is -/

theorem prefix_closeOpen (code : List Char) : code <+: (closeOpen code).1 :=
  closeOpen_fst code ▸ List.prefix_append _ _

theorem suffix_addDoctype (code : List Char) : code <:+ (addDoctype code).1 := by
  unfold addDoctype
  split
  · exact List.suffix_rfl
  · exact List.suffix_append _ _

theorem closeOpen_fixes (h : (closeOpen code).1.length ≤ code.length) : (closeOpen code).2 = [] := by
  unfold closeOpen at h ⊢
  split at h
  · rfl
  · rename_i names hnames
    obtain ⟨last, names', hlast⟩ := List.exists_cons_of_ne_nil (mt List.reverse_eq_nil_iff.1 hnames)
    rw [List.length_append, hlast, List.map_cons, List.flatten_cons, List.length_append] at h
    simp only [endTag, List.length_cons] at h
    omega

theorem addDoctype_fixes (h : (addDoctype code).1.length ≤ code.length) : (addDoctype code).2 = [] := by
  unfold addDoctype at h ⊢
  split at h
  · rename_i hdoctype
    rw [if_pos hdoctype]
  · have hlead : "<!DOCTYPE html>\n".toList.length = 16 := rfl
    rw [List.length_append, hlead] at h
    omega

theorem htmlOpening?_append {s : List Char} (h : (htmlOpening? s).isSome = true) (t : List Char) :
    (htmlOpening? (s ++ t)).isSome = true := by
  unfold htmlOpening? at h ⊢
  cases hkeyword : afterCaseless? "<html".toList s with
  | none =>
    rw [hkeyword] at h
    cases h
  | some rest =>
    rw [hkeyword] at h
    rw [afterCaseless?_append_right hkeyword]
    cases rest with
    | nil => cases h
    | cons c rest =>
      dsimp only [List.cons_append, Option.bind_some] at h ⊢
      split at h
      · rename_i hc
        rw [if_pos hc]
        rfl
      · cases h

/-- A document has a root when it is repaired. -/
theorem anywhere_htmlOpening?_repair (code : List Char) :
    anywhere htmlOpening? (repair code .document).1 = true := by
  have hbegin : (htmlOpening? "<html>\n".toList).isSome = true := by decide
  have hwrapped : ∀ s, anywhere htmlOpening? (wrapRoot s).1 = true := by
    intro s
    unfold wrapRoot
    split
    · assumption
    · rw [List.append_assoc]
      exact anywhere_of_isSome (htmlOpening?_append hbegin _)
  obtain ⟨lead, hlead⟩ := suffix_addDoctype (wrapRoot (closeOpen code).1).1
  rw [repair_document, ← hlead]
  exact anywhere_append_right lead (hwrapped _)

/-- A repair that leaves a text as it is has nothing to tell. -/
theorem repair_fixes (h : (repair code structure_).1 = code) : (repair code structure_).2 = [] := by
  cases structure_ with
  | fragment => exact closeOpen_fixes (congrArg List.length h).le
  | document =>
    have hroot : anywhere htmlOpening? (closeOpen code).1 = true := by
      have hcode := h ▸ anywhere_htmlOpening?_repair code
      rw [closeOpen_fst]
      exact anywhere_append_left (fun u hu => htmlOpening?_append hu _) hcode
    have hwrapping : wrapRoot (closeOpen code).1 = ((closeOpen code).1, []) := by
      rw [wrapRoot, if_pos hroot]
    rw [repair_document, hwrapping] at h ⊢
    dsimp only at h ⊢
    -- Nothing was put in front and nothing behind, since either would make the text longer.
    have hclosing := (prefix_closeOpen code).length_le
    have htyping := (suffix_addDoctype (closeOpen code).1).length_le
    rw [h] at htyping
    rw [closeOpen_fixes htyping, addDoctype_fixes (by rw [h]; exact hclosing)]
    rfl

/-! ## Outcomes -/

theorem unfence_of_snd (h : (unfence raw).2 = false) : unfence raw = (trim raw, false) := by
  rw [← unfence_trim] at h ⊢
  exact unfence_eq_self_of_snd (bare_trim raw) h

theorem unfenceFixes_eq_nil_iff (raw : List Char) :
    unfenceFixes (unfence raw).2 = [] ↔ (unfence raw).1 = trim raw := by
  constructor
  · intro h
    rw [unfence_of_snd (snd_unfence_of_fixes h)]
  · intro h
    cases hfenced : (unfence raw).2 with
    | false => rfl
    | true =>
      have hlt := count_unfence_lt_of_snd hfenced
      rw [h] at hlt
      exact absurd hlt (Nat.lt_irrefl _)

/-- Neither a repair alone nor one of what was fenced is undone. -/
theorem repair_fixes_eq_nil_iff (raw : List Char) (structure_ : Structure) :
    unfenceFixes (unfence raw).2 ++ (repair (unfence raw).1 structure_).2 = [] ↔
      (repair (unfence raw).1 structure_).1 = trim raw := by
  rw [List.append_eq_nil_iff]
  constructor
  · rintro ⟨hfences, hrepairs⟩
    rw [repair_eq hrepairs, (unfenceFixes_eq_nil_iff raw).1 hfences]
  · intro h
    cases hfenced : (unfence raw).2 with
    | false =>
      rw [unfence_of_snd hfenced] at h ⊢
      exact ⟨rfl, repair_fixes h⟩
    | true =>
      have hlt := count_unfence_lt_of_snd hfenced
      have hle := count_repair_le (unfence raw).1 structure_
      rw [h] at hle
      omega

/-- A text that is not blank and not too large comes out as it was given in, but for the blanks at its ends,
exactly if no fix is told. -/
theorem fixes_eq_nil_iff (read : OutlineReader) (structure_ : Structure)
    (hblank : raw.all isBlank = false) (hsize : (byteCount raw : Int) ≤ limit) :
    ((validateMarkup read raw structure_ limit).fixes = [] ↔
      (validateMarkup read raw structure_ limit).code = trim raw) ∧
    ((validateComponent raw structure_ limit).fixes = [] ↔
      (validateComponent raw structure_ limit).code = trim raw) := by
  have hlooked : precheck raw limit = none := precheck_eq_none.2 ⟨hblank, hsize⟩
  constructor
  · obtain ⟨hcode, hfixes⟩ | ⟨hcode, hfixes⟩ := validateMarkup_cases read structure_ hlooked
    · rw [hcode, hfixes]
      exact unfenceFixes_eq_nil_iff raw
    · rw [hcode, hfixes]
      exact repair_fixes_eq_nil_iff raw structure_
  · rw [validateComponent, hlooked]
    exact unfenceFixes_eq_nil_iff raw

/-- A document that is taken out of a fence and then repaired in all ways, and a source that only has
blanks around it. -/
theorem fixes_eq_nil_iff_repaired :
    let raw := "```\n<!doctype x> <p>`a`\n```\n".toList
    let v := validateMarkup Outline.ofMarkup raw .document 64
    let source := " export default 1\n".toList
    (v.fixes = [.unfenced, .closed 1, .wrapped, .typed] ∧ v.code ≠ trim raw) ∧
      (validateComponent source .document 64).code = trim source := by
  intro raw v source
  have hfixes : v.fixes = [.unfenced, .closed 1, .wrapped, .typed] := by decide +kernel
  obtain ⟨hmarkup, -⟩ := fixes_eq_nil_iff Outline.ofMarkup .document
    (show raw.all isBlank = false by decide +kernel) (show (byteCount raw : Int) ≤ 64 by decide +kernel)
  obtain ⟨-, hcomponent⟩ := fixes_eq_nil_iff Outline.ofMarkup .document
    (show source.all isBlank = false by decide +kernel)
    (show (byteCount source : Int) ≤ 64 by decide +kernel)
  refine ⟨⟨hfixes, fun hsame => ?_⟩, hcomponent.1 (by decide +kernel)⟩
  cases hfixes.symm.trans (hmarkup.2 hsame)

end VersionedSite.Markup
