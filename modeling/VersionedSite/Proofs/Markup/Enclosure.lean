import VersionedSite.Proofs.Markup.Stability

/-!
# Texts in a fenced block

Putting a text into a fenced block does not matter to its validation, but for the report that a fence was
taken off (`validate_enclosed`). Whatever stands on the line of the opening fence, however the lines end and
whatever blanks are around the block, exactly the block is taken off again (`unfence_text`): both line ends
belong to the fences, and what stands between them begins and ends without a blank.
-/

namespace VersionedSite.Markup

open Text

/-- The end of a line. -/
inductive LineEnd where
  | feed
  | returnFeed
  deriving DecidableEq, Repr

/-- The characters that a line ends in. -/
def LineEnd.text : LineEnd → List Char
  | feed => ['\n']
  | returnFeed => ['\r', '\n']

/-- A fenced block that a text can be put into. -/
structure Enclosure where
  /-- The blanks in front of the block. -/
  before : List Char := []
  /-- What stands on the line of the opening fence. -/
  info : List Char := []
  /-- The end of that line. -/
  opening : LineEnd := .feed
  /-- The end of the text's last line. -/
  closing : LineEnd := .feed
  /-- The blanks behind the block. -/
  behind : List Char := []
  blank_before : before.all isBlank = true := by decide
  info_line : info.any endsLine = false := by decide
  blank_behind : behind.all isBlank = true := by decide

namespace Enclosure

/-- A text between the fences of a block. -/
def block (e : Enclosure) (code : List Char) : List Char :=
  fence ++ (e.info ++ (e.opening.text ++ (code ++ (e.closing.text ++ fence))))

/-- A text in a fenced block, with the blanks around the block. -/
def text (e : Enclosure) (code : List Char) : List Char := e.before ++ (e.block code ++ e.behind)

variable (e : Enclosure) {code : List Char}

theorem fence_prefix_block (code : List Char) : fence <+: e.block code := List.prefix_append _ _

theorem bare_block (code : List Char) : Bare (e.block code) := by
  have hfence : Bare fence := ⟨by rintro c ⟨⟩; decide, by rintro c ⟨⟩; decide⟩
  have hend : e.block code = '`' :: ("``".toList ++ (e.info ++ (e.opening.text ++ (code ++
      e.closing.text)))) ++ fence := by
    simp [block, fence]
  rw [hend]
  exact hfence.append_left (List.cons_ne_nil _ _) (by decide) _

theorem infix_text (code : List Char) : code <:+: e.text code :=
  ⟨e.before ++ (fence ++ (e.info ++ e.opening.text)), e.closing.text ++ (fence ++ e.behind),
    by simp [text, block]⟩

theorem trim_text (code : List Char) : trim (e.text code) = e.block code :=
  (e.bare_block code).trim_append (List.cons_ne_nil _ _) (List.all_eq_true.1 e.blank_before)
    (List.all_eq_true.1 e.blank_behind)

theorem withoutOpening_block (code : List Char) :
    withoutOpening (e.block code) = code ++ (e.closing.text ++ fence) := by
  have hline : ∀ c ∈ e.info, endsLine c = false := fun c hc =>
    Bool.eq_false_iff.2 (List.any_eq_false.1 e.info_line c hc)
  refine withoutOpening_of_line ⟨e.info, e.opening.text, hline, ?_, rfl⟩
  cases e.opening with
  | feed => exact .inl rfl
  | returnFeed => exact .inr rfl

end Enclosure

/-- The fence on a line of its own behind a text that does not end in half of a line end. -/
theorem withoutClosing_append {code : List Char} (line : LineEnd) (h : code.getLast? ≠ some '\r') :
    withoutClosing (code ++ (line.text ++ fence)) = code := by
  have hmark : ∀ t, after? "```\n".toList ("```\n".toList ++ t) = some t := after?_append _
  rw [withoutClosing, List.reverse_append]
  cases line with
  | feed =>
    have hreverse : (LineEnd.feed.text ++ fence).reverse = "```\n".toList := rfl
    rw [hreverse, hmark]
    split
    · rename_i rest hrest
      -- The text itself would end in a carriage return.
      refine absurd ?_ h
      rw [← List.head?_reverse, Option.some.inj hrest]
      rfl
    · rename_i rest _ hrest
      cases hrest
      exact List.reverse_reverse code
    · rename_i hrest
      cases hrest
  | returnFeed =>
    have hreverse : (LineEnd.returnFeed.text ++ fence).reverse = "```\n".toList ++ ['\r'] := rfl
    rw [hreverse, List.append_assoc, hmark]
    exact List.reverse_reverse code

/-- Exactly the block is taken off. -/
theorem Enclosure.unfence_text (e : Enclosure) {code : List Char} (hbare : Bare code)
    (hends : ¬fence <:+ code) : unfence (e.text code) = (code, true) := by
  have hreturn : code.getLast? ≠ some '\r' := fun h => by
    cases hbare.last _ h
  have hleft : trim (withoutTrailing (withoutClosing (withoutOpening (e.block code)))) = code := by
    rw [withoutOpening_block, withoutClosing_append e.closing hreturn,
      withoutTrailing_of_not_suffix hends, hbare.trim_eq]
  have hshorter : code ≠ e.block code := by
    intro h
    have hlength := congrArg List.length h
    have hfence : fence.length = 3 := rfl
    simp only [block, List.length_append] at hlength
    omega
  rw [← unfence_trim, e.trim_text, unfence_of_begins (e.bare_block code) (e.fence_prefix_block code), hleft]
  simp [hshorter]

/-- A validation with the report that a fence was taken off in front of the other ones. -/
def Validation.unfenced (v : Validation) : Validation := { v with fixes := .unfenced :: v.fixes }

variable {raw code : List Char} {structure_ : Structure} {limit : Int}

/-- A text that a fence was taken off from is validated as what was left of it. -/
theorem validate_of_unfence (read : OutlineReader) (structure_ : Structure)
    (hraw : precheck raw limit = none) (hcode : precheck code limit = none)
    (hunfence : unfence raw = (code, true)) (hself : unfence code = (code, false)) :
    validateMarkup read raw structure_ limit = (validateMarkup read code structure_ limit).unfenced ∧
      validateComponent raw structure_ limit = (validateComponent code structure_ limit).unfenced := by
  constructor
  · rw [validateMarkup, validateMarkup, hraw, hcode, hunfence, hself]
    dsimp only
    -- Whether there is a repair depends on the defects alone.
    rw [apply_ite Validation.unfenced]
    rfl
  · rw [validateComponent, validateComponent, hraw, hcode, hunfence, hself]
    rfl

/-- A text that is there, has no blanks at its ends and neither begins nor ends in a fence is validated in a
fenced block as it is without, and it is told that the fence was taken off. -/
theorem validate_enclosed (e : Enclosure) (hbare : Bare code) (hne : code ≠ [])
    (hbegins : ¬fence <+: code) (hends : ¬fence <:+ code)
    (hlimit : (byteCount (e.text code) : Int) ≤ limit) (read : OutlineReader)
    (structure_ : Structure) :
    validateMarkup read (e.text code) structure_ limit =
        (validateMarkup read code structure_ limit).unfenced ∧
      validateComponent (e.text code) structure_ limit =
        (validateComponent code structure_ limit).unfenced ∧
      Fix.unfenced.message = "Removed markdown code fences" := by
  have hunfence := e.unfence_text hbare hends
  have hself : unfence code = (code, false) :=
    unfence_of_not_isFenced hbare fun h => hbegins h.1
  have hcode : precheck code limit = none := by
    have hle := byteCount_le_of_sublist (e.infix_text code).sublist
    exact (precheck_of_bare hbare hne).2 (by omega)
  have hraw : precheck (e.text code) limit = none := by
    refine precheck_eq_none.2 ⟨List.all_eq_false.2 ⟨'`', ?_, by decide⟩, hlimit⟩
    simp [Enclosure.text, Enclosure.block, fence]
  obtain ⟨hmarkup, hcomponent⟩ := validate_of_unfence read structure_ hraw hcode hunfence hself
  exact ⟨hmarkup, hcomponent, rfl⟩

/-- A fragment with a fence of its own inside, and with an element that is closed by the repair. -/
theorem validate_enclosed_fence :
    let e : Enclosure :=
      { before := [' '], info := "html `x`".toList, opening := .returnFeed, behind := ['\n'] }
    let code := "<pre>\n```\nx\n```\n</pre><b>".toList
    e.text code = " ```html `x`\r\n<pre>\n```\nx\n```\n</pre><b>\n```\n".toList ∧
      validateMarkup Outline.ofMarkup (e.text code) .fragment 64 =
        { code := code ++ "</b>".toList, fixes := [.unfenced, .closed 1] } := by
  intro e code
  have hbare : Bare code := bare_iff_trim_eq.2 (by decide +kernel)
  obtain ⟨hmarkup, -⟩ := validate_enclosed e hbare (by decide +kernel) (by decide +kernel)
    (by decide +kernel) (show (byteCount (e.text code) : Int) ≤ 64 by decide +kernel)
    Outline.ofMarkup .fragment
  have hplain : validateMarkup Outline.ofMarkup code .fragment 64 =
      { code := code ++ "</b>".toList, fixes := [.closed 1] } := by
    decide +kernel
  refine ⟨by decide +kernel, ?_⟩
  rw [hmarkup, hplain]
  rfl

end VersionedSite.Markup
