import Mathlib.Data.List.Basic
import VersionedSite.Path.Basic

/-!
# Paths and their segments

A path is its segments with slashes between them; no segment has a slash in it, and there are no other
characters in a path than those of its segments.

* `of_mem_segments`, `mem_intercalate`: the characters of a path and of its segments.
* `segments_append`: what is put behind a path without a slash belongs to its last segment.
-/

namespace VersionedSite.Path

variable {path segment : List Char} {c : Char}

/-- Whether a segment is the name of a file or a directory. -/
def IsName (segment : List Char) : Prop := segment ≠ [] ∧ segment ≠ ['.'] ∧ segment ≠ ['.', '.']

theorem segments_cons (c : Char) (path : List Char) : segments (c :: path) =
    if c = '/' then [] :: segments path else (segments path).modifyHead (List.cons c) := by
  rw [segments, List.splitOn_cons_eq_if_modifyHead]
  simp only [beq_iff_eq]
  rfl

theorem segments_ne_nil (path : List Char) : segments path ≠ [] := List.splitOn_ne_nil '/' path

/-- No segment has a slash, and each of its characters is one of the path. -/
theorem of_mem_segments (h : segment ∈ segments path) (hc : c ∈ segment) : c ∈ path ∧ c ≠ '/' := by
  induction path generalizing segment with
  | nil =>
    rw [List.mem_singleton.1 h] at hc
    cases hc
  | cons d path ih =>
    rw [segments_cons] at h
    split at h
    · rcases List.mem_cons.1 h with rfl | h
      · cases hc
      · exact (ih h hc).imp_left (List.mem_cons_of_mem _)
    · rename_i hd
      obtain ⟨first, rest, he⟩ := List.exists_cons_of_ne_nil (segments_ne_nil path)
      rw [he, List.modifyHead_cons] at h
      rw [he] at ih
      rcases List.mem_cons.1 h with rfl | h
      · rcases List.mem_cons.1 hc with rfl | hc
        · exact ⟨List.mem_cons_self, hd⟩
        · exact (ih List.mem_cons_self hc).imp_left (List.mem_cons_of_mem _)
      · exact (ih (List.mem_cons_of_mem _ h) hc).imp_left (List.mem_cons_of_mem _)

theorem slash_not_mem_of_mem_segments (h : segment ∈ segments path) : '/' ∉ segment :=
  fun hslash => (of_mem_segments h hslash).2 rfl

theorem mem_intercalate {sep c : Char} {steps : List (List Char)} (h : c ∈ [sep].intercalate steps) :
    c = sep ∨ ∃ step ∈ steps, c ∈ step := by
  induction steps with
  | nil => cases h
  | cons first steps ih =>
    cases steps with
    | nil => exact .inr ⟨first, List.mem_cons_self, by simpa using h⟩
    | cons second steps =>
      rw [List.intercalate_cons_cons, List.mem_append, List.mem_append, List.mem_singleton] at h
      rcases h with (h | h) | h
      · exact .inr ⟨first, List.mem_cons_self, h⟩
      · exact .inl h
      · exact (ih h).imp_right fun ⟨step, hstep, hc⟩ => ⟨step, List.mem_cons_of_mem _ hstep, hc⟩

/-- A path of more than one segment ends in a slash and the last of them. -/
theorem intercalate_concat {init : List (List Char)} (h : init ≠ []) (last : List Char) :
    ['/'].intercalate (init ++ [last]) = ['/'].intercalate init ++ '/' :: last := by
  induction init with
  | nil => exact absurd rfl h
  | cons first init ih =>
    rw [List.cons_append, List.intercalate_cons_of_ne_nil (by simp)]
    by_cases hinit : init = []
    · simp [hinit]
    · rw [ih hinit, List.intercalate_cons_of_ne_nil hinit, List.append_assoc, List.append_assoc,
        List.append_assoc]

theorem intercalate_segments (path : List Char) : ['/'].intercalate (segments path) = path :=
  List.intercalate_splitOn '/'

theorem segments_intercalate {names : List (List Char)} (hne : names ≠ [])
    (h : ∀ name ∈ names, '/' ∉ name) : segments (['/'].intercalate names) = names :=
  List.splitOn_intercalate '/' h hne

theorem segments_append_slash (path rest : List Char) :
    segments (path ++ '/' :: rest) = segments path ++ segments rest :=
  List.splitOn_append_cons_self path rest

/-- Between two slashes in a row there is an empty segment. -/
theorem nil_mem_segments (h : ['/', '/'] <:+: path) : [] ∈ segments path := by
  obtain ⟨before, behind, rfl⟩ := h
  have hsegments : segments (before ++ '/' :: '/' :: behind) =
      segments before ++ [] :: segments behind :=
    (segments_append_slash before _).trans (congrArg _ (segments_append_slash [] behind))
  rw [List.append_assoc]
  exact hsegments ▸ List.mem_append_right _ List.mem_cons_self

/-- What is put behind a path without a slash belongs to its last segment. -/
theorem segments_append {init : List (List Char)} {last t : List Char}
    (h : segments path = init ++ [last]) (ht : '/' ∉ t) :
    segments (path ++ t) = init ++ [last ++ t] := by
  have hpath : path ++ t = ['/'].intercalate (init ++ [last ++ t]) := by
    rw [← intercalate_segments path, h]
    by_cases hinit : init = []
    · simp [hinit]
    · rw [intercalate_concat hinit, intercalate_concat hinit, List.append_assoc]
      rfl
  have hslash : ∀ name ∈ init ++ [last], '/' ∉ name := fun name hname =>
    slash_not_mem_of_mem_segments (h ▸ hname)
  rw [List.forall_mem_append, List.forall_mem_singleton] at hslash
  rw [hpath, segments_intercalate (by simp)]
  refine List.forall_mem_append.2 ⟨hslash.1, List.forall_mem_singleton.2 fun hmem => ?_⟩
  exact (List.mem_append.1 hmem).elim hslash.2 ht

end VersionedSite.Path
