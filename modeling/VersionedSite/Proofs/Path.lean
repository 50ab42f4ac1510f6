import VersionedSite.Proofs.Path.Segments
import VersionedSite.Proofs.Text.Lowercase
import VersionedSite.Proofs.Text.Trim

/-!
# Canonical paths

What the form that a caller's path is brought into promises (`Path.Canonical.of_normalize?`). The
backslashes are gone by then, and the path tells its own family: nothing that is taken off at its begin
belongs to its extension, and it has an extension of one family only.

* `Path.infer?_of_admits_tidy`: the extension of a tidied path stands at the end of its spelling already.
* `Path.Canonical.tidy_eq`: a canonical path is tidy as it is, unless it begins with a blank.
* `Path.normalize?_eq_self_iff`: so it is left as it is when it is brought into canonical form again.
-/

namespace VersionedSite

open Text

/-! ## Families -/

namespace PathMode

variable {mode : PathMode} {path : List Char}

theorem admits_iff :
    mode.admits path = true ↔ ∃ ext ∈ mode.extensions, ext.toList <:+ lower path := by
  simp [admits, List.any_eq_true]

theorem regular_extensions : ∀ ext ∈ mode.extensions,
    ext.toList.all comesFromRegular = true ∧ isSolid ext.toList = true := by
  cases mode <;> simp only [extensions, List.forall_mem_cons] <;> decide

/-- A path is admitted for the characters that it ends in. -/
theorem admits_iff_suffix : mode.admits path = true ↔ ∃ ext ∈ mode.extensions, ∃ t, t <:+ path ∧
    (∀ c ∈ t, isRegular c = true) ∧ t.map lowerOne = ext.toList :=
  admits_iff.trans (exists_congr fun ext => and_congr_right fun he =>
    suffix_lower_iff (List.all_eq_true.1 (regular_extensions ext he).1))

/-- Blanks at the ends of a path do not matter to its family, if there is none behind its extension. -/
theorem admits_trim (h : mode.admits path = true) : mode.admits (trim path) = true := by
  obtain ⟨ext, he, hs⟩ := admits_iff.1 h
  obtain ⟨hregular, hsolid⟩ := regular_extensions ext he
  exact admits_iff.2
    ⟨ext, he, suffix_lower_trim (List.all_eq_true.1 hregular) (isSolid_iff.1 hsolid) hs⟩

theorem eq_of_suffix_extensions {other : PathMode} : ∀ ext ∈ mode.extensions,
    ∀ ext' ∈ other.extensions, ext.toList <:+ ext'.toList → mode = other := by
  cases mode <;> cases other <;> decide

/-- No path has extensions of two families. -/
theorem admits_unique {other : PathMode} (h : mode.admits path = true)
    (ho : other.admits path = true) : mode = other := by
  obtain ⟨ext, he, hs⟩ := admits_iff.1 h
  obtain ⟨ext', he', hs'⟩ := admits_iff.1 ho
  rcases List.suffix_or_suffix_of_suffix hs hs' with h | h
  · exact eq_of_suffix_extensions ext he ext' he' h
  · exact (eq_of_suffix_extensions ext' he' ext he h).symm

theorem infer?_eq_some_iff {raw : String} :
    infer? raw = some mode ↔ mode.admits (trim raw.toList) = true := by
  refine ⟨fun h => by simpa using List.find?_some h, fun h => ?_⟩
  cases mode with
  | document => simp [infer?, all, h]
  | component =>
    have hnot : admits .document (trim raw.toList) = false := by
      cases hd : admits .document (trim raw.toList) with
      | false => rfl
      | true => cases admits_unique hd h
    simp [infer?, all, h, hnot]

theorem infer?_of_admits {path : String} (h : mode.admits path.toList = true) :
    infer? path = some mode :=
  infer?_eq_some_iff.2 (admits_trim h)

theorem extension_ne_empty : ∀ ext ∈ mode.extensions, ext.toList ≠ [] := by
  cases mode <;> decide

/-- What ends in an extension does not end in a blank. -/
theorem isBlank_getLast?_of_admits (h : mode.admits path = true) :
    ∀ c, path.getLast? = some c → isBlank c = false := by
  obtain ⟨ext, he, t, ⟨lead, rfl⟩, -, hmap⟩ := admits_iff_suffix.1 h
  have hsolid := (regular_extensions ext he).2
  have hne : t ≠ [] := by
    rintro rfl
    exact extension_ne_empty ext he hmap.symm
  intro c hc
  rw [List.getLast?_append_of_ne_nil _ hne] at hc
  cases hb : isBlank c with
  | false => rfl
  | true =>
    have hmem : lowerOne c ∈ ext.toList := hmap ▸ List.mem_map_of_mem (List.mem_of_getLast? hc)
    cases (isBlank_lowerOne hb).symm.trans (isSolid_iff.1 hsolid _ hmem)

theorem slash_not_mem_extension : ∀ ext ∈ mode.extensions, '/' ∉ ext.toList := by
  cases mode <;> decide

end PathMode

/-! ## Canonical form -/

namespace Path

/-- A canonical path of a family. -/
structure Canonical (mode : PathMode) (path : String) : Prop where
  ne_empty : path ≠ ""
  relative : path.toList.head? ≠ some '/'
  proper : ∀ segment ∈ segments path.toList,
    segment ≠ [] ∧ segment ≠ ['.'] ∧ segment ≠ ['.', '.']
  backslash_not_mem : '\\' ∉ path.toList
  nul_not_mem : '\x00' ∉ path.toList
  admits : mode.admits path.toList = true
  /-- The family is the one that the path itself tells. -/
  infer?_eq : PathMode.infer? path = some mode

theorem Canonical.of_proper {mode : PathMode} {path : String}
    (hproper : ∀ segment ∈ segments path.toList,
      segment ≠ [] ∧ segment ≠ ['.'] ∧ segment ≠ ['.', '.'])
    (hbackslash : '\\' ∉ path.toList) (hnul : '\x00' ∉ path.toList)
    (hadmits : mode.admits path.toList = true) : Canonical mode path where
  ne_empty := by
    rintro rfl
    exact (hproper [] List.mem_cons_self).1 rfl
  relative hslash := by
    obtain ⟨rest, hpath⟩ := List.head?_eq_some_iff.1 hslash
    rw [hpath, segments_cons, if_pos rfl] at hproper
    exact (hproper [] List.mem_cons_self).1 rfl
  proper := hproper
  backslash_not_mem := hbackslash
  nul_not_mem := hnul
  admits := hadmits
  infer?_eq := PathMode.infer?_of_admits hadmits

theorem collapseSlashes_sublist (path : List Char) : (collapseSlashes path).Sublist path := by
  fun_induction collapseSlashes path with
  | case1 rest ih => exact ih.trans (List.sublist_cons_self _ _)
  | case2 c rest _ ih => exact ih.cons_cons c
  | case3 => exact List.Sublist.refl _

theorem dropDotSlashes_suffix (path : List Char) : dropDotSlashes path <:+ path := by
  fun_induction dropDotSlashes path with
  | case1 rest ih => exact ih.trans ((List.suffix_cons _ _).trans (List.suffix_cons _ _))
  | case2 path _ => exact List.suffix_rfl

theorem backslash_not_mem_tidy (raw : List Char) : '\\' ∉ tidy raw := by
  intro h
  have hforward := (collapseSlashes_sublist _).subset ((dropDotSlashes_suffix _).subset h)
  obtain ⟨c, -, hc⟩ := List.mem_map.1 hforward
  split at hc
  · cases hc
  · simp_all

theorem forwardSlashes_eq_self {path : List Char} (h : '\\' ∉ path) : forwardSlashes path = path := by
  rw [forwardSlashes]
  conv_rhs => rw [← List.map_id path]
  refine List.map_congr_left fun c hc => ?_
  have hne : c ≠ '\\' := fun he => h (he ▸ hc)
  simp [hne]

theorem collapseSlashes_eq_self {path : List Char} (h : ¬['/', '/'] <:+: path) :
    collapseSlashes path = path := by
  fun_induction collapseSlashes path with
  | case1 rest _ => exact absurd (List.prefix_append ['/', '/'] rest).isInfix h
  | case2 c rest _ ih => rw [ih fun hrest => h (hrest.trans (List.suffix_cons c rest).isInfix)]
  | case3 => rfl

/-! ### Where a path ends

A tidy path ends as the caller's spelling does, up to the last slash. -/

theorem slash_not_mem_of_collapseSlashes {path : List Char} (h : '/' ∉ collapseSlashes path) :
    '/' ∉ path := by
  fun_induction collapseSlashes path with
  | case1 rest ih => exact absurd List.mem_cons_self (ih h)
  | case2 c rest _ ih =>
    rw [List.mem_cons, not_or] at h ⊢
    exact ⟨h.1, ih h.2⟩
  | case3 => exact h

variable {ending path raw : List Char}

theorem suffix_of_suffix_forwardSlashes (h : ending <:+ forwardSlashes path) (hslash : '/' ∉ ending) :
    ending <:+ path := by
  obtain ⟨lead, hlead⟩ := h
  obtain ⟨front, back, rfl, -, rfl⟩ := List.map_eq_append_iff.1 hlead.symm
  -- No backslash of the path's end has become a slash.
  have hback : '\\' ∉ back := fun hmem => hslash (List.mem_map.2 ⟨'\\', hmem, rfl⟩)
  have hsame : (back.map fun c => if c == '\\' then '/' else c) = back := forwardSlashes_eq_self hback
  rw [hsame]
  exact List.suffix_append front back

theorem suffix_of_suffix_collapseSlashes (h : ending <:+ collapseSlashes path) (hslash : '/' ∉ ending) :
    ending <:+ path := by
  fun_induction collapseSlashes path with
  | case1 rest ih => exact (ih h).trans (List.suffix_cons '/' _)
  | case2 c rest _ ih =>
    rcases List.suffix_cons_iff.1 h with rfl | h
    · have hrest := slash_not_mem_of_collapseSlashes fun hmem => hslash (List.mem_cons_of_mem c hmem)
      have hslashes : ¬['/', '/'] <:+: rest := fun hs => hrest (hs.subset List.mem_cons_self)
      rw [collapseSlashes_eq_self hslashes]
    · exact (ih h).trans (List.suffix_cons c rest)
  | case3 => exact h

theorem suffix_trim_of_suffix_tidy (h : ending <:+ tidy raw) (hslash : '/' ∉ ending) :
    ending <:+ trim raw :=
  suffix_of_suffix_forwardSlashes
    (suffix_of_suffix_collapseSlashes (h.trans (dropDotSlashes_suffix _)) hslash) hslash

/-- The family that a tidy path tells is the one that the caller's spelling tells. -/
theorem infer?_of_admits_tidy {mode : PathMode} {raw : String}
    (h : mode.admits (tidy raw.toList) = true) : PathMode.infer? raw = some mode := by
  obtain ⟨ext, he, t, hsuffix, hregular, hmap⟩ := PathMode.admits_iff_suffix.1 h
  have hslash : '/' ∉ t := fun hmem =>
    PathMode.slash_not_mem_extension ext he (hmap ▸ List.mem_map.2 ⟨'/', hmem, by decide⟩)
  exact PathMode.infer?_eq_some_iff.2 (PathMode.admits_iff_suffix.2
    ⟨ext, he, t, suffix_trim_of_suffix_tidy hsuffix hslash, hregular, hmap⟩)

/-! ### What is promised -/

theorem Canonical.of_normalize? {mode : PathMode} {raw path : String}
    (h : normalize? mode raw = some path) : Canonical mode path := by
  obtain ⟨rfl, ha⟩ := normalize?_eq_some.1 h
  simp only [admissible, Bool.and_eq_true, bne_iff_ne, Bool.not_eq_true', List.all_eq_true,
    properSegment, List.contains_eq_mem, decide_eq_false_iff_not] at ha
  obtain ⟨⟨⟨⟨hne, hhead⟩, hnul⟩, hproper⟩, hadmits⟩ := ha
  have hlist := String.toList_ofList (l := tidy raw.toList)
  refine ⟨fun he => ?_, ?_, fun segment hs => ?_, ?_, ?_, ?_, PathMode.infer?_of_admits ?_⟩
  · exact hne (by simpa using congrArg String.toList he)
  all_goals rw [hlist] at *
  · exact hhead
  · obtain ⟨⟨hempty, hdot⟩, hdots⟩ := hproper segment hs
    exact ⟨hempty, hdot, hdots⟩
  · exact backslash_not_mem_tidy _
  · exact hnul
  · exact hadmits
  · exact hadmits

/-! ## Canonical paths brought into canonical form -/

theorem dropDotSlashes_eq_self {path : List Char} (h : ['.'] ∉ segments path) :
    dropDotSlashes path = path := by
  fun_cases dropDotSlashes path with
  | case1 rest =>
    have hsegments : segments ('.' :: '/' :: rest) = ['.'] :: segments rest :=
      segments_append_slash ['.'] rest
    rw [hsegments] at h
    exact absurd List.mem_cons_self h
  | case2 => rfl

/-- A canonical path that does not begin with a blank is tidy as it is. -/
theorem Canonical.tidy_eq {mode : PathMode} {path : String} (h : Canonical mode path)
    (hblank : ∀ c, path.toList.head? = some c → isBlank c = false) : tidy path.toList = path.toList := by
  have hbare : Bare path.toList := ⟨hblank, PathMode.isBlank_getLast?_of_admits h.admits⟩
  have hslashes : ¬['/', '/'] <:+: path.toList := fun hs => (h.proper _ (nil_mem_segments hs)).1 rfl
  have hdot : ['.'] ∉ segments path.toList := fun hs => (h.proper _ hs).2.1 rfl
  rw [tidy, hbare.trim_eq, forwardSlashes_eq_self h.backslash_not_mem, collapseSlashes_eq_self hslashes,
    dropDotSlashes_eq_self hdot]

theorem Canonical.normalize?_eq {mode : PathMode} {path : String} (h : Canonical mode path)
    (hblank : ∀ c, path.toList.head? = some c → isBlank c = false) : normalize? mode path = some path := by
  have hne : path.toList ≠ [] := mt String.toList_eq_nil_iff.1 h.ne_empty
  rw [normalize?_eq_some, h.tidy_eq hblank, String.ofList_toList]
  refine ⟨rfl, ?_⟩
  simp only [admissible, Bool.and_eq_true, bne_iff_ne, Bool.not_eq_true', List.all_eq_true,
    properSegment, List.contains_eq_mem, decide_eq_false_iff_not]
  exact ⟨⟨⟨⟨hne, h.relative⟩, h.nul_not_mem⟩, fun segment hs => and_assoc.2 (h.proper segment hs)⟩,
    h.admits⟩

theorem length_tidy_le (raw : List Char) : (tidy raw).length ≤ (trim raw).length :=
  calc (tidy raw).length
    _ ≤ (collapseSlashes (forwardSlashes (trim raw))).length := (dropDotSlashes_suffix _).length_le
    _ ≤ (forwardSlashes (trim raw)).length := (collapseSlashes_sublist _).length_le
    _ = (trim raw).length := List.length_map _

theorem length_trim_lt {c : Char} {s : List Char} (h : isBlank c = true) :
    (trim (c :: s)).length < (c :: s).length := by
  have hstart : trimStart (c :: s) = trimStart s := List.dropWhile_cons_of_pos h
  have hend : trim (c :: s) <+: trimStart s := hstart ▸ List.rdropWhile_prefix isBlank _
  exact Nat.lt_succ_of_le (hend.length_le.trans (trimStart_suffix s).length_le)

/-- A canonical path is brought into canonical form again without a change exactly if it does not begin
with a blank. -/
theorem normalize?_eq_self_iff {mode : PathMode} {raw path : String}
    (h : normalize? mode raw = some path) :
    normalize? mode path = some path ↔ ∀ c, path.toList.head? = some c → isBlank c = false := by
  constructor
  · intro hagain c hc
    cases hb : isBlank c with
    | false => rfl
    | true =>
      obtain ⟨rest, hpath⟩ : ∃ rest, path.toList = c :: rest := List.head?_eq_some_iff.1 hc
      have htidy : tidy path.toList = path.toList := by
        rw [← String.toList_ofList (l := tidy path.toList), (normalize?_eq_some.1 hagain).1]
      have hle := length_tidy_le path.toList
      rw [htidy, hpath] at hle
      exact absurd hle (Nat.not_le.2 (length_trim_lt hb))
  · exact (Canonical.of_normalize? h).normalize?_eq

end Path

end VersionedSite
