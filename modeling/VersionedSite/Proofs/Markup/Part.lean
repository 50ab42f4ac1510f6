import VersionedSite.Markup.Tag
import VersionedSite.Proofs.Text.Caseless
import VersionedSite.Proofs.Text.Scan
import VersionedSite.Proofs.Text.Trim

/-!
# Markup put together from its parts

A markup text is a row of runs without tags, comments, raw text elements and tags (`Part`). Each of the
three scans sees the parts one by one, whatever stands behind them: the first cuts out the comments
(`Part.remainder_comment?_text`), the second the raw text elements
(`Part.remainder_rawText?_uncommented`), and the third finds the tags (`Part.findings_tag?_scannable`). So
the tags found in a text are the ones written in it (`findings_scannable_source`).

* `comment?_text`, `RawElement.rawText?_text`, `WrittenTag.tag?_text`: what is written is recognised.
* `RawElement.avoids_text`, `WrittenTag.avoids_text`: no comment begins in any other part.
* `rawText?_of_word`: no raw text element begins at a tag of another name.
-/

namespace VersionedSite.Markup

open Text

variable {s t : List Char}

/-! ## Comments -/

/-- The marks around a comment. -/
def commentOpening : List Char := "<!--".toList

def commentClosing : List Char := "-->".toList

/-- A comment as it is written. -/
structure Comment where
  body : List Char
  closing_body : mentions commentClosing body = false := by decide

def Comment.text (c : Comment) : List Char := commentOpening ++ (c.body ++ commentClosing)

theorem comment?_text (c : Comment) (t : List Char) : comment? (c.text ++ t) = some ((), t) := by
  have hbreak : breakOn? commentClosing (c.body ++ (commentClosing ++ t)) = some (c.body, t) :=
    breakOn?_of_not_mentions (by decide) (by decide) c.closing_body t
  have hopen : after? "<!--".toList (c.text ++ t) = some (c.body ++ (commentClosing ++ t)) := by
    rw [Comment.text, List.append_assoc, List.append_assoc]
    exact after?_append commentOpening _
  rw [comment?, hopen]
  exact congrArg (Option.map _) hbreak

/-- No comment begins at a tag whose name is a word, up to the next tag. -/
theorem avoids_commentOpening {word : List Char} (hne : word ≠ []) (hbang : '!' ∉ word)
    (hword : '<' ∉ word) (hs : '<' ∉ s) : avoids commentOpening ('<' :: (word ++ s)) = true := by
  obtain ⟨c, word, rfl⟩ := List.exists_cons_of_ne_nil hne
  have hclash : clashes commentOpening ('<' :: (c :: word ++ s)) = true := by
    have hc : c ≠ '!' := fun hc => hbang (hc ▸ List.mem_cons_self)
    simp [commentOpening, clashes, hc]
  have hrest : avoids commentOpening (c :: word ++ s) = true :=
    avoids_of_not_mem (List.not_mem_append hword hs)
  rw [avoids, hclash, hrest]
  rfl

theorem comment?_eq_none (h : after? commentOpening s = none) : comment? s = none := by
  have hopen : after? "<!--".toList s = none := h
  rw [comment?, hopen]
  rfl

/-! ## Raw text elements -/

theorem isLower_of_mem_rawTextNames {name : List Char} (h : name ∈ rawTextNames) :
    ∀ k ∈ name, k.isLower = true := by
  have hall : ∀ name ∈ rawTextNames, name.all Char.isLower = true := by decide
  exact List.all_eq_true.1 (hall name h)

theorem ne_nil_of_mem_rawTextNames {name : List Char} (h : name ∈ rawTextNames) : name ≠ [] := by
  rintro rfl
  revert h
  decide

theorem isAlpha_of_toLower_mem {word : List Char} (hword : word.map Char.toLower ∈ rawTextNames) :
    ∀ c ∈ word, c.isAlpha = true := fun c hc => by
  have hlower := isLower_of_mem_rawTextNames hword _ (List.mem_map_of_mem hc)
  rwa [Char.isLower_toLower_eq_isAlpha] at hlower

/-- The end tag of a raw text element has its name in any case, and blanks behind it. -/
theorem rawTextEnd?_iff {word : List Char} : rawTextEnd? word s = some ((), t) ↔
    ∃ again gap, again.map lowerOne = word.map lowerOne ∧ (∀ c ∈ gap, isBlank c = true) ∧
      s = '<' :: '/' :: (again ++ (gap ++ '>' :: t)) := by
  simp only [rawTextEnd?, Option.bind_eq_some_iff, Option.map_eq_some_iff, afterRepeat?_iff,
    after?_eq_some_iff]
  constructor
  · rintro ⟨behind, ⟨_, rfl, again, hagain, rfl⟩, _, hgap, he⟩
    cases he
    refine ⟨again, behind.takeWhile isBlank, hagain, fun c => List.mem_takeWhile_imp, ?_⟩
    have hsplit : behind = behind.takeWhile isBlank ++ '>' :: t := by
      have hrest : trimStart behind = '>' :: t := hgap
      rw [← hrest, trimStart, List.takeWhile_append_dropWhile]
    rw [← hsplit]
    rfl
  · rintro ⟨again, gap, hagain, hgap, rfl⟩
    refine ⟨gap ++ '>' :: t, ⟨_, rfl, again, hagain, rfl⟩, t, ?_, rfl⟩
    exact trimStart_append_eq hgap fun c hc => by cases hc; rfl

/-- No raw text element of a name begins at a word that is another name. -/
theorem rawTextOf?_of_word {key word : List Char} (hkey : key ∈ rawTextNames)
    (hword : ∀ c ∈ word, c.isAlphanum = true) (hs : ∀ c, s.head? = some c → isWord c = false)
    (hother : word.map Char.toLower ≠ key) : rawTextOf? key ('<' :: (word ++ s)) = none := by
  have hlower := isLower_of_mem_rawTextNames hkey
  have hopen : after? ['<'] ('<' :: (word ++ s)) = some (word ++ s) := after?_append ['<'] _
  rw [rawTextOf?, hopen, Option.bind_some]
  cases hspelled : spelled? key (word ++ s) with
  | none => rfl
  | some found =>
    obtain ⟨found, rest⟩ := found
    have hfound := spelling_of_spelled? hspelled
    have hne : found ≠ [] := by
      rintro rfl
      cases hfound
      exact ne_nil_of_mem_rawTextNames hkey rfl
    have hlast := any_isWord_getLast? hne (isWord_of_spelling hfound hlower)
    rcases spelled?_word_cases hlower hword hs hspelled with he | ⟨c, more, hc, rfl⟩
    · exact absurd he hother
    · have hboundary : wordBoundary found.getLast? (c :: more).head? = false := by
        rw [wordBoundary, hlast, List.head?_cons, Option.any_some, isWord_of_isAlphanum hc]
        rfl
      rw [Option.bind_some]
      dsimp only
      rw [hboundary]
      rfl

theorem rawText?_of_word {word : List Char} (hword : ∀ c ∈ word, c.isAlphanum = true)
    (hs : ∀ c, s.head? = some c → isWord c = false) (hne : word.map Char.toLower ∉ rawTextNames) :
    rawText? ('<' :: (word ++ s)) = none := by
  refine List.findSome?_eq_none_iff.2 fun key hkey => rawTextOf?_of_word hkey hword hs ?_
  rintro rfl
  exact hne hkey

theorem rawText?_of_not_isWord {c : Char} (hc : isWord c = false) (s : List Char) :
    rawText? ('<' :: c :: s) = none := by
  have hnone := @rawText?_of_word (c :: s) [] (fun _ h => by cases h) (fun d hd => by cases hd; exact hc)
  exact hnone (by decide)

theorem rawText?_eq_none (h : after? ['<'] s = none) : rawText? s = none := by
  refine List.findSome?_eq_none_iff.2 fun key _ => ?_
  rw [rawTextOf?, h]
  rfl

/-- An end tag does not run on into the next tag. -/
theorem rawTextEnd?_append_eq_none {word : List Char} (hword : ∀ c ∈ word, c.isAlpha = true)
    (hs : s ≠ []) (h : rawTextEnd? word s = none) (t : List Char) :
    rawTextEnd? word (s ++ '<' :: t) = none := by
  refine Option.eq_none_iff_forall_ne_some.2 fun ⟨⟨⟩, rest⟩ hr => ?_
  obtain ⟨again, gap, hagain, hgap, he⟩ := rawTextEnd?_iff.1 hr
  -- It would end in `s`, or have the begin of the next tag inside.
  have hend : ∀ behind, s ≠ '<' :: '/' :: (again ++ (gap ++ '>' :: behind)) := fun behind hs => by
    cases (rawTextEnd?_iff.2 ⟨again, gap, hagain, hgap, hs⟩).symm.trans h
  have hinside : '<' ∉ '/' :: (again ++ (gap ++ ['>'])) := by
    simp only [List.mem_cons, List.mem_append, List.not_mem_nil, or_false, not_or]
    refine ⟨by decide, fun hmem => ?_, fun hmem => ?_, by decide⟩
    · have hlower : '<' ∈ word.map lowerOne := hagain ▸ List.mem_map_of_mem hmem
      obtain ⟨c, hc, hlt⟩ := List.mem_map.1 hlower
      have halpha := hword c hc
      rw [lowerOne_of_isAlphanum (isAlphanum_of_isAlpha halpha)] at hlt
      rw [← Char.isAlpha_toLower_eq_isAlpha, hlt] at halpha
      cases halpha
    · cases hgap _ hmem
  have hassoc : '<' :: '/' :: (again ++ (gap ++ '>' :: rest)) =
      '<' :: '/' :: (again ++ (gap ++ ['>'])) ++ rest := by simp
  rw [hassoc] at he
  rcases List.append_eq_append_iff.1 he with ⟨behind, hmark, hbehind⟩ | ⟨behind, hmark, -⟩
  · cases behind with
    | nil => exact hend [] (by rw [← hmark.trans (List.append_nil s)])
    | cons c behind =>
      cases hbehind
      obtain ⟨d, s, rfl⟩ := List.exists_cons_of_ne_nil hs
      rw [(List.cons.inj hmark).2] at hinside
      exact hinside (List.mem_append_right _ List.mem_cons_self)
  · exact hend behind (by rw [hmark]; simp)

theorem skipTo?_append_of_none {r : Recogniser Unit} (h : ∀ v, v <:+ s → v ≠ [] → r (v ++ t) = none) :
    skipTo? r (s ++ t) = skipTo? r t := by
  induction s with
  | nil => rfl
  | cons c s ih =>
    have hfirst := h (c :: s) List.suffix_rfl (List.cons_ne_nil c s)
    rw [List.cons_append] at hfirst ⊢
    rw [skipTo?, hfirst]
    exact ih fun v hv => h v (hv.trans (List.suffix_cons c s))

/-- An element whose content is raw text, as it is written. -/
structure RawElement where
  /-- The name in the begin tag. -/
  opened : List Char
  /-- What stands between the name and the end of the begin tag. It does not go on the name. -/
  attributes : List Char := []
  body : List Char
  /-- The name in the end tag. -/
  closed : List Char := opened
  /-- The blanks behind it. -/
  gap : List Char := []
  opened_mem : opened.map Char.toLower ∈ rawTextNames := by decide
  attributes_apart : attributes.head?.all (fun c => !isWord c) = true := by decide
  attributes_plain : '<' ∉ attributes ∧ '>' ∉ attributes := by decide
  opening_body : mentions commentOpening body = false := by decide
  ending_body : anywhere (rawTextEnd? opened) body = false := by decide
  closed_eq : closed.map Char.toLower = opened.map Char.toLower := by decide
  gap_blank : gap.all isBlank = true := by decide

namespace RawElement

variable (e : RawElement)

/-- The end tag. -/
def ending : List Char := '<' :: '/' :: (e.closed ++ (e.gap ++ ['>']))

def text : List Char :=
  '<' :: (e.opened ++ (e.attributes ++ '>' :: (e.body ++ e.ending)))

theorem isAlphanum_opened : ∀ c ∈ e.opened, c.isAlphanum = true := fun c hc =>
  isAlphanum_of_isAlpha (isAlpha_of_toLower_mem e.opened_mem c hc)

theorem opened_ne_nil : e.opened ≠ [] := fun h =>
  ne_nil_of_mem_rawTextNames e.opened_mem (List.map_eq_nil_iff.2 h)

/-- The two names are the same up to case in the wide sense too. -/
theorem map_lowerOne_closed : e.closed.map lowerOne = e.opened.map lowerOne := by
  have hlower : ∀ {word : List Char}, word.map Char.toLower ∈ rawTextNames →
      word.map lowerOne = word.map Char.toLower := fun hword =>
    List.map_congr_left fun c hc =>
      lowerOne_of_isAlphanum (isAlphanum_of_isAlpha (isAlpha_of_toLower_mem hword c hc))
  rw [hlower e.opened_mem, hlower (e.closed_eq ▸ e.opened_mem), e.closed_eq]

theorem isWord_head?_attributes (t : List Char) :
    ∀ c, (e.attributes ++ '>' :: t).head? = some c → isWord c = false := by
  intro c hc
  cases hattributes : e.attributes with
  | nil =>
    rw [hattributes] at hc
    cases hc
    decide
  | cons d attributes =>
    have hapart := e.attributes_apart
    rw [hattributes] at hc hapart
    cases hc
    simpa using hapart

theorem skipTo?_ending (t : List Char) :
    skipTo? (rawTextEnd? e.opened) (e.body ++ (e.ending ++ t)) = some t := by
  have hbody : ∀ v, v <:+ e.body → v ≠ [] → rawTextEnd? e.opened (v ++ (e.ending ++ t)) = none :=
    fun v hv hne => rawTextEnd?_append_eq_none (isAlpha_of_toLower_mem e.opened_mem) hne
      (eq_none_of_not_anywhere e.ending_body hv) _
  have hending : rawTextEnd? e.opened (e.ending ++ t) = some ((), t) :=
    rawTextEnd?_iff.2 ⟨e.closed, e.gap, e.map_lowerOne_closed, List.all_eq_true.1 e.gap_blank, by
      simp [ending]⟩
  rw [skipTo?_append_of_none hbody]
  rw [ending, List.cons_append] at hending ⊢
  rw [skipTo?, hending]

theorem text_append (t : List Char) :
    e.text ++ t = '<' :: (e.opened ++ (e.attributes ++ '>' :: (e.body ++ (e.ending ++ t)))) := by
  simp [text]

theorem rawTextOf?_text (t : List Char) :
    rawTextOf? (e.opened.map Char.toLower) (e.text ++ t) = some ((), t) := by
  have hopen : after? ['<'] (e.text ++ t) =
      some (e.opened ++ (e.attributes ++ '>' :: (e.body ++ (e.ending ++ t)))) := by
    rw [text_append]
    exact after?_append ['<'] _
  have hboundary := wordBoundary_of_word e.opened_ne_nil
    (fun c hc => isWord_of_isAlphanum (e.isAlphanum_opened c hc))
    (e.isWord_head?_attributes (e.body ++ (e.ending ++ t)))
  have hdrop : (e.attributes ++ '>' :: (e.body ++ (e.ending ++ t))).dropWhile (· != '>') =
      '>' :: (e.body ++ (e.ending ++ t)) :=
    List.dropWhile_append_of_pos fun c hc =>
      bne_iff_ne.2 (ne_of_mem_of_not_mem hc e.attributes_plain.2)
  have hattributes : after? ['>'] ('>' :: (e.body ++ (e.ending ++ t))) = some (e.body ++ (e.ending ++ t)) :=
    after?_append ['>'] _
  rw [rawTextOf?, hopen, Option.bind_some, spelled?_of_toLower rfl, Option.bind_some]
  dsimp only
  rw [if_pos hboundary, hdrop, hattributes, Option.bind_some, e.skipTo?_ending]
  rfl

theorem rawText?_text (t : List Char) : rawText? (e.text ++ t) = some ((), t) := by
  obtain ⟨before, behind, hnames, hbefore⟩ := List.eq_append_cons_of_mem e.opened_mem
  refine List.findSome?_eq_some_iff.2 ⟨before, _, behind, hnames, e.rawTextOf?_text t, fun key hkey => ?_⟩
  have hmem : key ∈ rawTextNames := hnames ▸ List.mem_append_left _ hkey
  rw [text_append]
  exact rawTextOf?_of_word hmem e.isAlphanum_opened (e.isWord_head?_attributes _)
    (ne_of_mem_of_not_mem hkey hbefore).symm

/-- No comment begins in it. -/
theorem avoids_text : avoids commentOpening e.text = true := by
  have hopened := isAlpha_of_toLower_mem e.opened_mem
  have hbegin : avoids commentOpening ('<' :: (e.opened ++ (e.attributes ++ ['>']))) = true :=
    avoids_commentOpening e.opened_ne_nil (fun hmem => by cases hopened _ hmem)
      (fun hmem => by cases hopened _ hmem) (List.not_mem_append e.attributes_plain.1 (by decide))
  have hend : avoids commentOpening e.ending = true := by
    refine avoids_commentOpening (List.cons_ne_nil '/' []) (by decide) (by decide) ?_
    refine List.not_mem_append (fun hmem => ?_) (List.not_mem_append (fun hmem => ?_) (by decide))
    · cases isAlpha_of_toLower_mem (e.closed_eq ▸ e.opened_mem) _ hmem
    · cases List.all_eq_true.1 e.gap_blank _ hmem
  have htext : e.text = '<' :: (e.opened ++ (e.attributes ++ ['>'])) ++ (e.body ++ e.ending) := by
    simp [text]
  rw [htext]
  exact avoids_append hbegin (avoids_append_of_not_mentions e.opening_body hend (by decide))

end RawElement

/-! ## Tags -/

theorem tag?_of_ne {c : Char} (hc : c ≠ '/') (s : List Char) :
    tag? ('<' :: c :: s) = tagBody? false (c :: s) := by
  unfold tag?
  split
  · rename_i he
    exact absurd (List.cons.inj (List.cons.inj he).2).1 hc
  · rename_i he
    rw [(List.cons.inj he).2]
  · rename_i h
    exact absurd rfl (h _)

theorem tag?_eq_none (h : after? ['<'] s = none) : tag? s = none := by
  unfold tag?
  split
  · cases h
  · cases h
  · rfl

theorem isNameChar_of_isBlank {c : Char} (h : isBlank c = true) : isNameChar c = false := by
  have hall : ∀ n ∈ blankCodes, isNameChar (Char.ofNat n) = false := by decide +kernel
  have hc := hall _ (mem_blankCodes h)
  rwa [Char.ofNat_toNat] at hc

/-- The quote that is open behind a character. -/
def quoteAfter : Option Char → Char → Option Char
  | none, c => if c == '"' || c == '\'' then some c else none
  | some q, c => if c == q then none else some q

/-- A tag as it is written. -/
structure WrittenTag where
  closing : Bool := false
  name : List Char
  attributes : List Char := []
  name_first : name.head?.any Char.isAlpha = true := by decide
  name_plain : name.all Char.isAlphanum = true := by decide
  name_other : name.map Char.toLower ∉ rawTextNames := by decide
  attributes_apart : attributes.head?.all (fun c => isBlank c || c == '/') = true := by decide
  attributes_plain : '<' ∉ attributes ∧ '>' ∉ attributes := by decide
  quotes_closed : attributes.foldl quoteAfter none = none := by decide

/-- The attributes of a tag end at the first `>` outside of quotes. -/
theorem attributes?_append (hs : '>' ∉ s) (quote : Option Char) (t : List Char) :
    attributes? quote (s ++ t) =
      (attributes? (s.foldl quoteAfter quote) t).map fun (attributes, rest) => (s ++ attributes, rest) := by
  induction s generalizing quote with
  | nil => simp
  | cons c s ih =>
    rw [List.mem_cons, not_or] at hs
    have hgt : (c == '>') = false := beq_false_of_ne (Ne.symm hs.1)
    cases quote with
    | none =>
      rw [List.cons_append, attributes?, hgt, if_neg Bool.false_ne_true, ih hs.2, List.foldl_cons]
      simp [quoteAfter, Function.comp_def]
    | some q =>
      rw [List.cons_append, attributes?, ih hs.2, List.foldl_cons]
      simp [quoteAfter, Function.comp_def]

namespace WrittenTag

variable (w : WrittenTag)

/-- What stands before the name. -/
def lead : List Char := if w.closing then ['/'] else []

def text : List Char := '<' :: (w.lead ++ w.name ++ (w.attributes ++ ['>']))

/-- The tag that is written. -/
def tag : Tag := { closing := w.closing, name := w.name.map Char.toLower, attributes := w.attributes }

theorem exists_name : ∃ c more, w.name = c :: more ∧ c.isAlpha = true := by
  have hfirst := w.name_first
  cases hname : w.name with
  | nil => rw [hname] at hfirst; cases hfirst
  | cons c more => exact ⟨c, more, rfl, by rwa [hname] at hfirst⟩

theorem isAlphanum_name : ∀ c ∈ w.name, c.isAlphanum = true := List.all_eq_true.1 w.name_plain

/-- What stands behind the name begins with a character that goes on no name and no word. -/
theorem exists_behind (t : List Char) : ∃ c more, w.attributes ++ '>' :: t = c :: more ∧
    isNameChar c = false ∧ isWord c = false := by
  have hapart := w.attributes_apart
  cases hattributes : w.attributes with
  | nil => exact ⟨'>', t, rfl, by decide, by decide⟩
  | cons c attributes =>
    refine ⟨c, _, rfl, ?_⟩
    rw [hattributes, List.head?_cons, Option.all_some, Bool.or_eq_true, beq_iff_eq] at hapart
    rcases hapart with hblank | rfl
    · exact ⟨isNameChar_of_isBlank hblank, isWord_of_isBlank hblank⟩
    · decide

theorem tagBody?_name (t : List Char) :
    tagBody? w.closing (w.name ++ (w.attributes ++ '>' :: t)) = some (w.tag, t) := by
  obtain ⟨c, more, hname, hc⟩ := w.exists_name
  obtain ⟨d, behind, hbehind, hd, -⟩ := w.exists_behind t
  have hmore : ∀ c ∈ more, isNameChar c = true := fun c hc => by
    have hc' := w.isAlphanum_name c (hname ▸ List.mem_cons_of_mem _ hc)
    rw [isNameChar, hc']
    rfl
  have hattributes : attributes? none (w.attributes ++ '>' :: t) = some (w.attributes, t) := by
    rw [attributes?_append w.attributes_plain.2, w.quotes_closed, attributes?]
    simp
  have htake : (more ++ d :: behind).takeWhile isNameChar = more := by
    rw [List.takeWhile_append_of_pos hmore, List.takeWhile_cons_of_neg (by simp [hd]), List.append_nil]
  have hdrop : (more ++ d :: behind).dropWhile isNameChar = d :: behind := by
    rw [List.dropWhile_append_of_pos hmore, List.dropWhile_cons_of_neg (by simp [hd])]
  rw [hbehind] at hattributes ⊢
  rw [hname, List.cons_append, tagBody?, if_pos hc, htake, hdrop, hattributes, tag, hname]
  rfl

theorem text_append (t : List Char) :
    w.text ++ t = '<' :: (w.lead ++ (w.name ++ (w.attributes ++ '>' :: t))) := by
  simp [text]

theorem tag?_text (t : List Char) : tag? (w.text ++ t) = some (w.tag, t) := by
  have hbody := w.tagBody?_name t
  rw [text_append, lead]
  cases hclosing : w.closing with
  | true =>
    rw [hclosing] at hbody
    exact hbody
  | false =>
    obtain ⟨c, more, hname, hc⟩ := w.exists_name
    have hslash : c ≠ '/' := by
      rintro rfl
      cases hc
    rw [hclosing, hname] at hbody
    rw [hname, if_neg Bool.false_ne_true]
    exact (tag?_of_ne hslash _).trans hbody

/-- Only its first character begins a tag. -/
theorem not_mem_text : '<' ∉ w.lead ++ w.name ++ (w.attributes ++ ['>']) := by
  refine List.not_mem_append (List.not_mem_append ?_ fun hmem => ?_)
    (List.not_mem_append w.attributes_plain.1 (by decide))
  · unfold lead
    split <;> decide
  · cases w.isAlphanum_name _ hmem

theorem avoids_text : avoids commentOpening w.text = true := by
  have hplain := w.not_mem_text
  obtain ⟨c, more, hname, -⟩ := w.exists_name
  rw [List.mem_append, not_or] at hplain
  refine avoids_commentOpening ?_ (List.not_mem_append ?_ fun hmem => ?_) hplain.1 hplain.2
  · rw [hname]
    exact List.append_ne_nil_of_right_ne_nil _ (List.cons_ne_nil c more)
  · unfold lead
    split <;> decide
  · cases w.isAlphanum_name _ hmem

theorem rawText?_text (t : List Char) : rawText? (w.text ++ t) = none := by
  rw [text_append, lead]
  cases w.closing with
  | true =>
    exact rawText?_of_not_isWord (c := '/') (by decide) (w.name ++ (w.attributes ++ '>' :: t))
  | false =>
    rw [if_neg Bool.false_ne_true, List.nil_append]
    refine rawText?_of_word w.isAlphanum_name (fun c hc => ?_) w.name_other
    obtain ⟨d, behind, hbehind, -, hd⟩ := w.exists_behind t
    rw [hbehind] at hc
    cases hc
    exact hd

/-- No raw text element begins in a tag of another name. -/
theorem rawText?_eq_none (t : List Char) {v : List Char} (hv : v <:+ w.text) (hne : v ≠ []) :
    rawText? (v ++ t) = none := by
  rcases List.suffix_cons_iff.1 hv with rfl | hv
  · exact w.rawText?_text t
  · exact eq_none_of_suffix (fun _ => Markup.rawText?_eq_none) (avoids_of_not_mem w.not_mem_text) hv hne

end WrittenTag

/-! ## Parts -/

/-- A part of a markup text. -/
inductive Part where
  /-- A run without tags. -/
  | run (text : List Char) (plain : '<' ∉ text := by decide)
  | comment (c : Comment)
  | rawElement (e : RawElement)
  | tag (w : WrittenTag)

namespace Part

def text : Part → List Char
  | run text _ => text
  | comment c => c.text
  | rawElement e => e.text
  | tag w => w.text

/-- What is left of a part without comments. -/
def uncommented : Part → List Char
  | comment _ => []
  | part => part.text

/-- What is left of a part without comments and raw text elements. -/
def scannable : Part → List Char
  | comment _ => []
  | rawElement _ => []
  | part => part.text

/-- The tags that are written in a part. -/
def tags : Part → List Tag
  | tag w => [w.tag]
  | _ => []

theorem remainder_comment?_text (part : Part) (t : List Char) :
    remainder comment? (part.text ++ t) = part.uncommented ++ remainder comment? t := by
  have hpass : ∀ {s}, avoids commentOpening s = true →
      remainder comment? (s ++ t) = s ++ remainder comment? t := fun hs =>
    remainder_append_of_none fun _ => eq_none_of_suffix (fun _ => comment?_eq_none) hs
  cases part with
  | run text plain => exact hpass (avoids_of_not_mem plain)
  | comment c => exact remainder_append_of_some (List.cons_ne_nil _ _) (comment?_text c t)
  | rawElement e => exact hpass e.avoids_text
  | tag w => exact hpass w.avoids_text

theorem remainder_rawText?_uncommented (part : Part) (t : List Char) :
    remainder rawText? (part.uncommented ++ t) = part.scannable ++ remainder rawText? t := by
  cases part with
  | run text plain =>
    exact remainder_append_of_none fun _ =>
      eq_none_of_suffix (fun _ => rawText?_eq_none) (avoids_of_not_mem plain)
  | comment c => rfl
  | rawElement e => exact remainder_append_of_some (List.cons_ne_nil _ _) (e.rawText?_text t)
  | tag w => exact remainder_append_of_none fun _ => w.rawText?_eq_none t

theorem findings_tag?_scannable (part : Part) (t : List Char) :
    findings tag? (part.scannable ++ t) = part.tags ++ findings tag? t := by
  cases part with
  | run text plain =>
    exact findings_append_of_none fun _ =>
      eq_none_of_suffix (fun _ => tag?_eq_none) (avoids_of_not_mem plain)
  | comment c => rfl
  | rawElement e => rfl
  | tag w => exact findings_append_of_some (List.cons_ne_nil _ _) (w.tag?_text t)

end Part

/-- The text of a row of parts. -/
def source (parts : List Part) : List Char := parts.flatMap Part.text

/-- The tags found in a text are the ones that are written in its parts. -/
theorem findings_scannable_source (parts : List Part) :
    findings tag? (scannable (source parts)) = parts.flatMap Part.tags := by
  have hscannable : scannable (source parts) = parts.flatMap Part.scannable := by
    rw [scannable, source, remainder_flatMap Part.remainder_comment?_text,
      remainder_flatMap Part.remainder_rawText?_uncommented]
  rw [hscannable, findings_flatMap Part.findings_tag?_scannable]

theorem unclosed_source (parts : List Part) :
    unclosed (source parts) = (openAfter [] (parts.flatMap Part.tags)).reverse := by
  rw [unclosed, findings_scannable_source]

end VersionedSite.Markup
