import VersionedSite.Markup.Validation
import VersionedSite.Proofs.Markup.Part

/-!
# Closing what is open

A text of markup parts has nothing open after its repair (`unclosed_repair`). Whatever is on the stack
behind a row of tags was put there by a begin tag of the row (`mem_openAfter`). So the end tags that are
appended are tags again, of the names on the stack and of no void element, and they take one name after
the other off the stack (`openAfter_ending`).

* `open_mem_defectsOf`: a validation reports elements as open exactly if they are.
-/

namespace VersionedSite.Markup

open Text

variable {name : List Char} {stack : List (List Char)} {tags : List Tag} {code : List Char}

/-! ## The stack -/

theorem mem_of_mem_close {other : List Char} (h : name ∈ close other stack) : name ∈ stack := by
  unfold close at h
  split at h
  · exact (List.dropWhile_suffix _).subset (List.mem_of_mem_tail h)
  · exact h

/-- Whether a tag puts its name on the stack. -/
def Tag.begins (t : Tag) : Bool := !t.standsAlone && !t.closing

theorem Tag.not_mem_voidNames {t : Tag} (h : t.begins = true) : t.name ∉ voidNames := by
  intro hmem
  simp [begins, standsAlone, hmem] at h

theorem openAfter_append (stack : List (List Char)) (tags more : List Tag) :
    openAfter stack (tags ++ more) = openAfter (openAfter stack tags) more :=
  List.foldl_append

theorem mem_apply {t : Tag} (h : name ∈ t.apply stack) :
    name ∈ stack ∨ t.begins = true ∧ t.name = name := by
  unfold Tag.apply at h
  split at h
  · exact .inl h
  · rename_i halone
    split at h
    · exact .inl (mem_of_mem_close h)
    · rename_i hclosing
      rcases List.mem_cons.1 h with rfl | h
      · exact .inr ⟨by simp [Tag.begins, halone, hclosing], rfl⟩
      · exact .inl h

theorem mem_openAfter (h : name ∈ openAfter stack tags) :
    name ∈ stack ∨ ∃ t ∈ tags, t.begins = true ∧ t.name = name := by
  induction tags generalizing stack with
  | nil => exact .inl h
  | cons t tags ih =>
    rcases ih h with h | ⟨t', hmem, ht'⟩
    · exact (mem_apply h).imp_right fun ht => ⟨t, List.mem_cons_self, ht⟩
    · exact .inr ⟨t', List.mem_cons_of_mem t hmem, ht'⟩

/-- The end tag of a name, as it is found. -/
def Tag.ending (name : List Char) : Tag := { closing := true, name, attributes := [] }

theorem Tag.ending_apply (h : name ∉ voidNames) (stack : List (List Char)) :
    (Tag.ending name).apply (name :: stack) = stack := by
  have halone : (Tag.ending name).standsAlone = false := by
    simp [standsAlone, ending, h, trimEnd]
  rw [apply, halone]
  simp [ending, close]

/-- The end tags of the names on a stack, innermost first, clear it. -/
theorem openAfter_ending (h : ∀ name ∈ stack, name ∉ voidNames) :
    openAfter stack (stack.map Tag.ending) = [] := by
  induction stack with
  | nil => rfl
  | cons name stack ih =>
    rw [List.forall_mem_cons] at h
    rw [List.map_cons, openAfter, List.foldl_cons, Tag.ending_apply h.1]
    exact ih h.2

/-! ## End tags as parts -/

/-- The end tag of a tag. -/
def WrittenTag.ending (w : WrittenTag) : WrittenTag where
  closing := true
  name := w.name.map Char.toLower
  name_first := by
    obtain ⟨c, more, hname, hc⟩ := w.exists_name
    rw [hname, List.map_cons, List.head?_cons, Option.any_some, Char.isAlpha_toLower_eq_isAlpha, hc]
  name_plain := by
    refine List.all_eq_true.2 fun c hc => ?_
    obtain ⟨d, hd, rfl⟩ := List.mem_map.1 hc
    exact isAlphanum_toLower (w.isAlphanum_name d hd)
  name_other := by
    rw [map_toLower_map_toLower]
    exact w.name_other

theorem WrittenTag.text_ending (w : WrittenTag) : w.ending.text = endTag w.tag.name := by
  simp [text, ending, lead, endTag, tag]

theorem WrittenTag.tag_ending (w : WrittenTag) : w.ending.tag = Tag.ending w.tag.name := by
  simp only [tag, ending, Tag.ending, map_toLower_map_toLower]

theorem Part.mem_tags {part : Part} {t : Tag} : t ∈ part.tags ↔ ∃ w, part = .tag w ∧ w.tag = t := by
  cases part <;> simp [tags, eq_comm]

/-- The end tags of names that have tags are parts of a markup text too. -/
theorem exists_endTags {parts : List Part}
    (h : ∀ name ∈ stack, ∃ t ∈ parts.flatMap Part.tags, t.name = name) :
    ∃ more, source more = (stack.map endTag).flatten ∧ more.flatMap Part.tags = stack.map Tag.ending := by
  induction stack with
  | nil => exact ⟨[], rfl, rfl⟩
  | cons name stack ih =>
    rw [List.forall_mem_cons] at h
    obtain ⟨⟨t, ht, rfl⟩, hstack⟩ := h
    obtain ⟨part, -, hpart⟩ := List.mem_flatMap.1 ht
    obtain ⟨w, -, rfl⟩ := Part.mem_tags.1 hpart
    obtain ⟨more, hsource, htags⟩ := ih hstack
    refine ⟨.tag w.ending :: more, ?_, ?_⟩
    · rw [List.map_cons, List.flatten_cons, ← hsource, ← w.text_ending]
      rfl
    · rw [List.map_cons, ← htags, ← w.tag_ending]
      rfl

/-! ## Repairs -/

theorem closeOpen_fst (code : List Char) :
    (closeOpen code).1 = code ++ ((unclosed code).reverse.map endTag).flatten := by
  unfold closeOpen
  split
  · rename_i h
    rw [h]
    simp
  · rfl

theorem open_mem_openDefects {names : List (List Char)} :
    .open_ names ∈ openDefects code ↔ unclosed code = names ∧ names ≠ [] := by
  unfold openDefects
  cases unclosed code with
  | nil => simp [eq_comm]
  | cons first names' =>
    simp only [List.mem_singleton, Defect.open_.injEq]
    constructor
    · rintro rfl
      exact ⟨rfl, List.cons_ne_nil _ _⟩
    · exact fun h => h.1.symm

/-- Elements of a text that can be read are reported as open exactly if they are. -/
theorem open_mem_defectsOf {read : OutlineReader} {o : Outline} (h : read code = .ok o)
    {structure_ : Structure} {names : List (List Char)} :
    .open_ names ∈ defectsOf read code structure_ ↔ unclosed code = names ∧ names ≠ [] := by
  rw [defectsOf, h, ← open_mem_openDefects]
  refine List.mem_append.trans (or_iff_right ?_)
  cases structure_ <;> simp [documentDefects, fragmentDefects]

/-- The end tags of everything open, innermost first, leave nothing open. -/
theorem unclosed_append_endTags (parts : List Part) :
    unclosed (source parts ++ ((unclosed (source parts)).reverse.map endTag).flatten) = [] := by
  have hstack : (unclosed (source parts)).reverse = openAfter [] (parts.flatMap Part.tags) := by
    rw [unclosed_source, List.reverse_reverse]
  have hbegun : ∀ name ∈ openAfter [] (parts.flatMap Part.tags),
      ∃ t ∈ parts.flatMap Part.tags, t.begins = true ∧ t.name = name := fun name hname =>
    (mem_openAfter hname).resolve_left List.not_mem_nil
  obtain ⟨more, hsource, htags⟩ := exists_endTags fun name hname =>
    (hbegun name hname).imp fun t ht => ⟨ht.1, ht.2.2⟩
  have happend : source parts ++ source more = source (parts ++ more) := List.flatMap_append.symm
  have hvoid : ∀ name ∈ openAfter [] (parts.flatMap Part.tags), name ∉ voidNames := by
    intro name hname
    obtain ⟨t, -, hbegins, rfl⟩ := hbegun name hname
    exact t.not_mem_voidNames hbegins
  rw [hstack, ← hsource, happend, unclosed_source, List.flatMap_append, htags, openAfter_append,
    openAfter_ending hvoid, List.reverse_nil]

/-- What is open are the names that the tags of a text leave on the stack, outermost first. The repair of a
fragment appends the end tags of them, innermost first, and nothing is open behind it or reported as open. -/
theorem unclosed_repair (parts : List Part) :
    let names := unclosed (source parts)
    let closed := source parts ++ (names.reverse.map endTag).flatten
    names = (openAfter [] (parts.flatMap Part.tags)).reverse ∧
      unclosed closed = [] ∧ (repair (source parts) .fragment).1 = closed ∧
      ∀ read names, .open_ names ∉ defectsOf read (repair (source parts) .fragment).1 .fragment := by
  have hclosed := unclosed_append_endTags parts
  have hrepair : (repair (source parts) .fragment).1 = _ := closeOpen_fst (source parts)
  refine ⟨unclosed_source parts, hclosed, hrepair, fun read names h => ?_⟩
  rw [hrepair] at h
  cases hread : read (source parts ++ ((unclosed (source parts)).reverse.map endTag).flatten) with
  | error why =>
    rw [defectsOf, hread, List.mem_singleton] at h
    cases h
  | ok o =>
    obtain ⟨he, hne⟩ := (open_mem_defectsOf hread).1 h
    exact hne (he.symm.trans hclosed)

/-- Two begin tags, and others that are not read as tags. -/
def nested : List Part :=
  [.comment { body := " <b> ".toList },
   .tag { name := "P".toList, attributes := " id='a'".toList },
   .rawElement
     { opened := "Style".toList, body := "i</b>".toList, closed := "STYLE".toList, gap := "  ".toList },
   .tag { name := "br".toList }, .tag { name := "em".toList }, .run "one".toList]

theorem unclosed_repair_nested :
    unclosed (source nested) = ["p".toList, "em".toList] ∧
      (repair (source nested) .fragment).1 =
        "<!-- <b> --><P id='a'><Style>i</b></STYLE  ><br><em>one</em></p>".toList ∧
      unclosed (repair (source nested) .fragment).1 = [] := by
  obtain ⟨hnames, hclosed, hrepair, -⟩ := unclosed_repair nested
  have hopen : unclosed (source nested) = ["p".toList, "em".toList] := by
    rw [hnames]
    decide +kernel
  refine ⟨hopen, ?_, hrepair ▸ hclosed⟩
  rw [hrepair, hopen]
  decide +kernel

end VersionedSite.Markup
