import VersionedSite.Proofs.Markup.Fence
import VersionedSite.Proofs.Markup.Validation
import VersionedSite.Proofs.Text.Search

/-!
# Validating what was accepted

A text that was accepted, given to the same validation again, is accepted as it is, unless it has outgrown
the size limit or is fenced (`accepted_again`). Both happen: a repair may carry a text over the limit, which
is held against what is given in, and a text may have had a fence inside of its fence
(`not_accepted_again`).

* `not_isFenced_code`: a text that begins without a fence is not fenced when it is accepted.
* `byteCount_of_fixes`: without a repair no text outgrows the limit.
-/

namespace VersionedSite.Markup

open Text

variable {read : OutlineReader} {code raw : List Char} {structure_ : Structure} {limit : Int}

/-! ## Sizes -/

theorem byteCount_cons (c : Char) (s : List Char) : byteCount (c :: s) = c.utf8Size + byteCount s := by
  have hfold : ∀ (s : List Char) (n : Nat),
      s.foldl (fun n c => n + c.utf8Size) n = n + byteCount s := by
    intro s
    induction s with
    | nil => exact fun _ => rfl
    | cons d s ih =>
      intro n
      rw [byteCount, List.foldl_cons, List.foldl_cons, ih, ih, Nat.zero_add, Nat.add_assoc]
  rw [byteCount, List.foldl_cons, hfold, Nat.zero_add]

theorem byteCount_le_of_sublist {s t : List Char} (h : s.Sublist t) : byteCount s ≤ byteCount t := by
  induction h with
  | slnil => exact Nat.le_refl _
  | cons c _ ih =>
    rw [byteCount_cons]
    omega
  | cons_cons c _ ih =>
    rw [byteCount_cons, byteCount_cons]
    omega

theorem precheck_eq_none :
    precheck raw limit = none ↔ raw.all isBlank = false ∧ (byteCount raw : Int) ≤ limit := by
  unfold precheck
  split
  · rename_i hblank
    simp [hblank]
  · rename_i hblank
    split
    · rename_i hlarge
      simp only [reduceCtorEq, false_iff, not_and, Int.not_le]
      exact fun _ => hlarge
    · rename_i hsmall
      exact iff_of_true rfl ⟨by simpa using hblank, Int.not_lt.1 hsmall⟩

/-- A bare text that is there is looked at if it is not too large. -/
theorem precheck_of_bare (hbare : Bare code) (hne : code ≠ []) :
    precheck code limit = none ↔ (byteCount code : Int) ≤ limit := by
  rw [precheck_eq_none, and_iff_right]
  obtain ⟨c, s, rfl⟩ := List.exists_cons_of_ne_nil hne
  rw [List.all_cons, hbare.head c rfl, Bool.false_and]

/-! ## Validating again -/

theorem validateMarkup_of_precheck {v : Validation} (h : precheck raw limit = some v) :
    validateMarkup read raw structure_ limit = v := by
  rw [validateMarkup, h]

theorem precheck_of_isValid
    (h : (validateMarkup read raw structure_ limit).isValid = true) :
    precheck raw limit = none := by
  refine Option.eq_none_iff_forall_ne_some.2 fun v hv => ?_
  rw [validateMarkup_of_precheck hv, precheck_invalid hv] at h
  cases h

/-- A text that was looked at comes out as what is left of it, or as a repair of that, and what is told of it
is told in this order. -/
theorem validateMarkup_cases (read : OutlineReader) (structure_ : Structure)
    (h : precheck raw limit = none) :
    (validateMarkup read raw structure_ limit).code = (unfence raw).1 ∧
        (validateMarkup read raw structure_ limit).fixes = unfenceFixes (unfence raw).2 ∨
      (validateMarkup read raw structure_ limit).code = (repair (unfence raw).1 structure_).1 ∧
        (validateMarkup read raw structure_ limit).fixes =
          unfenceFixes (unfence raw).2 ++ (repair (unfence raw).1 structure_).2 := by
  rw [validateMarkup, h]
  dsimp only
  split
  · exact .inl ⟨rfl, rfl⟩
  · exact .inr ⟨rfl, rfl⟩

theorem snd_unfence_of_fixes (h : unfenceFixes (unfence raw).2 = []) : (unfence raw).2 = false := by
  unfold unfenceFixes at h
  split at h
  · cases h
  · rename_i hkept
    simpa using hkept

theorem validateMarkup_again (hbare : Bare code) (hne : code ≠ [])
    (hnone : defectsOf read code structure_ = []) :
    validateMarkup read code structure_ limit = { code } ↔
      (byteCount code : Int) ≤ limit ∧ ¬IsFenced code := by
  rw [← precheck_of_bare hbare hne, ← unfence_eq_self_iff hbare]
  constructor
  · intro h
    have hlooked : precheck code limit = none := precheck_of_isValid (by rw [h]; rfl)
    have hfixes : unfenceFixes (unfence code).2 = [] := by
      obtain ⟨-, htold⟩ | ⟨-, htold⟩ := validateMarkup_cases read structure_ hlooked <;>
        rw [h] at htold
      · exact htold.symm
      · exact (List.append_eq_nil_iff.1 htold.symm).1
    exact ⟨hlooked, unfence_eq_self_of_snd hbare (snd_unfence_of_fixes hfixes)⟩
  · rintro ⟨hlooked, hsame⟩
    rw [validateMarkup, hlooked, hsame]
    dsimp only
    rw [hnone]
    rfl

theorem validateComponent_again (hbare : Bare code) (hne : code ≠ [])
    (hnone : componentDefects code structure_ = []) :
    validateComponent code structure_ limit = { code } ↔
      (byteCount code : Int) ≤ limit ∧ ¬IsFenced code := by
  rw [← precheck_of_bare hbare hne, ← unfence_eq_self_iff hbare, validateComponent]
  cases hlooked : precheck code limit with
  | some v =>
    refine iff_of_false ?_ nofun
    rintro rfl
    cases precheck_invalid hlooked
  | none =>
    dsimp only
    constructor
    · intro h
      exact ⟨rfl, unfence_eq_self_of_snd hbare (snd_unfence_of_fixes (congrArg Validation.fixes h))⟩
    · rintro ⟨-, hsame⟩
      rw [hsame]
      dsimp only
      rw [hnone]
      rfl

/-! ## What a repair leaves -/

theorem closeOpen_eq (h : (closeOpen code).2 = []) : (closeOpen code).1 = code := by
  unfold closeOpen at h ⊢
  split at h
  · rfl
  · cases h

theorem wrapRoot_eq (h : (wrapRoot code).2 = []) : (wrapRoot code).1 = code := by
  unfold wrapRoot at h ⊢
  split at h
  · rename_i hroot
    rw [if_pos hroot]
  · cases h

theorem addDoctype_eq (h : (addDoctype code).2 = []) : (addDoctype code).1 = code := by
  unfold addDoctype at h ⊢
  split at h
  · rename_i hdoctype
    rw [if_pos hdoctype]
  · cases h

/-- A repair of which nothing is told has not changed anything. -/
theorem repair_eq (h : (repair code structure_).2 = []) : (repair code structure_).1 = code := by
  cases structure_ with
  | fragment => exact closeOpen_eq h
  | document =>
    rw [repair_document] at h ⊢
    dsimp only at h ⊢
    obtain ⟨hboth, htyping⟩ := List.append_eq_nil_iff.1 h
    obtain ⟨hclosing, hwrapping⟩ := List.append_eq_nil_iff.1 hboth
    rw [addDoctype_eq htyping, wrapRoot_eq hwrapping, closeOpen_eq hclosing]

/-- What is closed is closed behind the text. -/
theorem head?_flatten_endTag (names : List (List Char)) :
    ∀ c, ((names.map endTag).flatten).head? = some c → c = '<' := by
  intro c hc
  cases names with
  | nil => cases hc
  | cons name names =>
    cases hc
    rfl

/-- Nothing that a repair puts in front of a text or behind it makes the text begin with a fence. -/
theorem not_fence_prefix_repair (h : ¬fence <+: code) (structure_ : Structure) :
    ¬fence <+: (repair code structure_).1 := by
  have hclosing : ¬fence <+: (closeOpen code).1 := by
    unfold closeOpen
    split
    · exact h
    · refine after?_eq_none_iff.1 (after?_append_eq_none (after?_eq_none_iff.2 h) fun c hc => ?_)
      rw [head?_flatten_endTag _ c hc]
      decide
  have hbegin : ∀ s, ¬fence <+: '<' :: s := by
    rintro s ⟨rest, hrest⟩
    cases hrest
  cases structure_ with
  | fragment => exact hclosing
  | document =>
    have hwrapping : ¬fence <+: (wrapRoot (closeOpen code).1).1 := by
      unfold wrapRoot
      split
      · exact hclosing
      · exact hbegin _
    rw [repair_document]
    unfold addDoctype
    split
    · exact hwrapping
    · exact hbegin _

/-! ## Outcomes -/

theorem unfenced_not_mem_repair : Fix.unfenced ∉ (repair code structure_).2 := by
  have hclosing : Fix.unfenced ∉ (closeOpen code).2 := by
    unfold closeOpen
    split <;> simp
  have hwrapping : ∀ s, Fix.unfenced ∉ (wrapRoot s).2 := by
    intro s
    unfold wrapRoot
    split <;> simp
  have htyping : ∀ s, Fix.unfenced ∉ (addDoctype s).2 := by
    intro s
    unfold addDoctype
    split <;> simp
  cases structure_ with
  | fragment => exact hclosing
  | document =>
    rw [repair_document]
    simp only [List.mem_append, not_or]
    exact ⟨⟨hclosing, hwrapping _⟩, htyping _⟩

theorem byteCount_unfence_le (h : precheck raw limit = none) : (byteCount (unfence raw).1 : Int) ≤ limit := by
  have hsize := (precheck_eq_none.1 h).2
  have hle := byteCount_le_of_sublist (sublist_unfence raw)
  omega

/-- Without a repair, no text outgrows the limit. -/
theorem byteCount_of_fixes (h : (validateMarkup read raw structure_ limit).isValid = true)
    (hfixes : ∀ fix ∈ (validateMarkup read raw structure_ limit).fixes, fix = .unfenced) :
    (byteCount (validateMarkup read raw structure_ limit).code : Int) ≤ limit := by
  have hlooked := precheck_of_isValid h
  obtain ⟨hcode, -⟩ | ⟨hcode, hrepaired⟩ := validateMarkup_cases read structure_ hlooked
  · rw [hcode]
    exact byteCount_unfence_le hlooked
  · have hnone : (repair (unfence raw).1 structure_).2 = [] := by
      refine List.eq_nil_iff_forall_not_mem.2 fun fix hfix => ?_
      rw [hrepaired] at hfixes
      rw [hfixes fix (List.mem_append_right _ hfix)] at hfix
      exact unfenced_not_mem_repair hfix
    rw [hcode, repair_eq hnone]
    exact byteCount_unfence_le hlooked

theorem not_fence_prefix_unfence (h : ¬fence <+: trim raw) : ¬fence <+: (unfence raw).1 := by
  have hplain : fence.isPrefixOf (trim raw) = false := by
    rw [← Bool.not_eq_true, List.isPrefixOf_iff_prefix]
    exact h
  rwa [unfence_of_not_fenced hplain]

/-- A text that begins without a fence is not fenced when it is accepted. -/
theorem not_isFenced_code (h : (validateMarkup read raw structure_ limit).isValid = true)
    (hraw : ¬fence <+: trim raw) :
    ¬IsFenced (validateMarkup read raw structure_ limit).code := by
  have hbegin := not_fence_prefix_unfence hraw
  rintro ⟨hbegins, -⟩
  obtain ⟨hcode, -⟩ | ⟨hcode, -⟩ :=
    validateMarkup_cases read structure_ (precheck_of_isValid h)
  · exact hbegin (hcode ▸ hbegins)
  · exact not_fence_prefix_repair hbegin structure_ (hcode ▸ hbegins)

theorem code_validateComponent (h : (validateComponent raw structure_ limit).isValid = true) :
    precheck raw limit = none ∧ (validateComponent raw structure_ limit).code = (unfence raw).1 := by
  unfold validateComponent at h ⊢
  cases hlooked : precheck raw limit with
  | some v =>
    rw [hlooked] at h
    cases (precheck_invalid hlooked).symm.trans h
  | none => exact ⟨rfl, rfl⟩

/-- Markup that was accepted, validated again, is accepted as it is exactly if it has not outgrown the size
limit and is not fenced. It has not outgrown it unless it was repaired, and it is not fenced unless what was
given in began with a fence. Component sources are never repaired, so that only the fence counts. -/
theorem accepted_again (hread : read.VacantAtNil) (raw : List Char) (structure_ : Structure) (limit : Int) :
    (∀ v, validateMarkup read raw structure_ limit = v → v.isValid = true →
      (validateMarkup read v.code structure_ limit = { code := v.code } ↔
        (byteCount v.code : Int) ≤ limit ∧ ¬IsFenced v.code) ∧
      ((∀ fix ∈ v.fixes, fix = .unfenced) → (byteCount v.code : Int) ≤ limit) ∧
      (¬fence <+: trim raw → ¬IsFenced v.code)) ∧
    (∀ v, validateComponent raw structure_ limit = v → v.isValid = true →
      (validateComponent v.code structure_ limit = { code := v.code } ↔ ¬IsFenced v.code) ∧
      (¬fence <+: trim raw → ¬IsFenced v.code)) := by
  refine ⟨fun v hv h => ?_, fun v hv h => ?_⟩
  · obtain ⟨hne, hbare, hnone⟩ := validateMarkup_fit hread hv h
    subst hv
    exact ⟨validateMarkup_again hbare hne hnone, byteCount_of_fixes h, not_isFenced_code h⟩
  · obtain ⟨hne, hbare, hnone⟩ := validateComponent_fit hv h
    subst hv
    obtain ⟨hlooked, hcode⟩ := code_validateComponent h
    have hsize : (byteCount (validateComponent raw structure_ limit).code : Int) ≤ limit := by
      rw [hcode]
      exact byteCount_unfence_le hlooked
    refine ⟨?_, fun hraw hfenced => not_fence_prefix_unfence hraw (hcode ▸ hfenced.1)⟩
    rw [validateComponent_again hbare hne hnone, and_iff_right hsize]

/-- A page that comes fenced and with an open element. -/
theorem accepted_again_list :
    let raw := "```html\n<ul><li>one\n```".toList
    let v := validateMarkup Outline.ofMarkup raw .fragment 64
    v = { code := "<ul><li>one</li></ul>".toList, fixes := [.unfenced, .closed 2] } ∧
      validateMarkup Outline.ofMarkup v.code .fragment 64 = { code := v.code } := by
  intro raw v
  have hv : v = { code := "<ul><li>one</li></ul>".toList, fixes := [.unfenced, .closed 2] } := by
    decide +kernel
  have hvalid : v.isValid = true := by
    rw [hv]
    rfl
  have hplain : ¬IsFenced v.code := by
    rw [hv]
    rintro ⟨⟨rest, hrest⟩, -⟩
    cases hrest
  have hsize : (byteCount v.code : Int) ≤ 64 := by
    rw [hv]
    decide
  exact ⟨hv, ((accepted_again vacantAtNil_ofMarkup raw .fragment 64).1 v rfl hvalid).1.2 ⟨hsize, hplain⟩⟩

/-- A fence inside of a fence is left by the first validation and taken off by the second, and closing an
element carries a text over the limit that it was within. -/
theorem not_accepted_again :
    let fenced := validateMarkup Outline.ofMarkup "```\n```\n<p>x</p>".toList .fragment 64
    let grown := validateMarkup Outline.ofMarkup "<p>x".toList .fragment 4
    (fenced.isValid = true ∧ fenced.code = "```\n<p>x</p>".toList ∧
      validateMarkup Outline.ofMarkup fenced.code .fragment 64 =
        { code := "<p>x</p>".toList, fixes := [.unfenced] }) ∧
    grown.isValid = true ∧ grown.code = "<p>x</p>".toList ∧
      (validateMarkup Outline.ofMarkup grown.code .fragment 4).defects = [.tooLarge 4] := by
  decide +kernel

end VersionedSite.Markup
