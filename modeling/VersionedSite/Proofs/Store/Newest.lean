import Mathlib.Data.List.Induction
import Mathlib.Data.List.Perm.Basic
import VersionedSite.Proofs.Store.Integrity
import VersionedSite.Store.Snapshot

/-!
# The newest row

The last of the rows with the greatest number (`newestOf_eq_some_iff`). Where no number repeats the order
of the rows does not matter (`newestOf_perm`), and where numbers go up the newest row is the last
(`newestOf_eq_getLast?`).

A row of a project is a version with its file and its revision, both of the project
(`Keyed.mem_rows`). What the project's files hold at a number is the newest of what is seen of its
versions (`contentAt_eq`).
-/

namespace VersionedSite

section Newest

variable {α β : Type} (number : α → Int)

/-- The newer of a row, if there is one, and another that stands behind it. -/
def newer (best : Option α) (a : α) : Option α :=
  match best with
  | none => some a
  | some b => if number b ≤ number a then some a else some b

/-- The row with the greatest number, the last of those that have it. -/
def newestOf (l : List α) : Option α := l.foldl (newer number) none

variable {number}

theorem newestOf_concat (l : List α) (a : α) :
    newestOf number (l ++ [a]) = newer number (newestOf number l) a := by
  simp [newestOf]

@[simp] theorem newestOf_eq_none {l : List α} : newestOf number l = none ↔ l = [] := by
  induction l using List.reverseRecOn with
  | nil => simp [newestOf]
  | append_singleton l a ih =>
    rw [newestOf_concat, newer.eq_def]
    split
    · simp
    · split <;> simp

/-- Rows up to the newest one have no greater number, and rows behind it a smaller one. -/
theorem exists_of_newestOf {l : List α} {a : α} (h : newestOf number l = some a) :
    ∃ l₁ l₂, l = l₁ ++ a :: l₂ ∧ (∀ b ∈ l₁, number b ≤ number a) ∧
      ∀ b ∈ l₂, number b < number a := by
  induction l using List.reverseRecOn generalizing a with
  | nil => simp [newestOf] at h
  | append_singleton l c ih =>
    rw [newestOf_concat, newer.eq_def] at h
    split at h
    · rename_i hn
      cases h
      rw [newestOf_eq_none] at hn
      exact ⟨[], [], by simp [hn], by simp, by simp⟩
    · rename_i b hb
      obtain ⟨l₁, l₂, rfl, h₁, h₂⟩ := ih hb
      split at h
      · rename_i hle
        cases h
        refine ⟨l₁ ++ b :: l₂, [], rfl, fun d hd => ?_, by simp⟩
        rcases List.mem_append.1 hd with hd | hd
        · exact Int.le_trans (h₁ d hd) hle
        · rcases List.mem_cons.1 hd with rfl | hd
          · exact hle
          · exact Int.le_trans (Int.le_of_lt (h₂ d hd)) hle
      · rename_i hlt
        cases h
        refine ⟨l₁, l₂ ++ [c], by simp, h₁, fun d hd => ?_⟩
        rcases List.mem_append.1 hd with hd | hd
        · exact h₂ d hd
        · rw [List.mem_singleton.1 hd]
          exact Int.not_le.1 hlt

theorem foldl_newer_of_lt {l : List α} {a : α} (h : ∀ b ∈ l, number b < number a) :
    l.foldl (newer number) (some a) = some a := by
  induction l with
  | nil => rfl
  | cons b l ih =>
    have hb : ¬ number a ≤ number b := Int.not_le.2 (h b List.mem_cons_self)
    rw [List.foldl_cons, newer, if_neg hb]
    exact ih fun c hc => h c (List.mem_cons_of_mem b hc)

theorem newestOf_eq_some_iff {l : List α} {a : α} :
    newestOf number l = some a ↔ ∃ l₁ l₂, l = l₁ ++ a :: l₂ ∧ (∀ b ∈ l₁, number b ≤ number a) ∧
      ∀ b ∈ l₂, number b < number a := by
  refine ⟨exists_of_newestOf, ?_⟩
  rintro ⟨l₁, l₂, rfl, h₁, h₂⟩
  have hfirst : newer number (newestOf number l₁) a = some a := by
    unfold newer
    split
    · rfl
    · rename_i b hb
      obtain ⟨k₁, k₂, rfl, -, -⟩ := exists_of_newestOf hb
      exact if_pos (h₁ b (by simp))
  rw [newestOf, List.foldl_append, List.foldl_cons, ← newestOf, hfirst]
  exact foldl_newer_of_lt h₂

theorem mem_of_newestOf {l : List α} {a : α} (h : newestOf number l = some a) : a ∈ l := by
  obtain ⟨l₁, l₂, rfl, -, -⟩ := exists_of_newestOf h
  simp

theorem le_of_newestOf {l : List α} {a : α} (h : newestOf number l = some a) {b : α} (hb : b ∈ l) :
    number b ≤ number a := by
  obtain ⟨l₁, l₂, rfl, h₁, h₂⟩ := exists_of_newestOf h
  rcases List.mem_append.1 hb with hb | hb
  · exact h₁ b hb
  · rcases List.mem_cons.1 hb with rfl | hb
    · exact Int.le_refl _
    · exact Int.le_of_lt (h₂ b hb)

/-- The newest of what is made of rows, numbers kept, is made of the newest row. -/
theorem newestOf_map {f : α → β} {number' : β → Int} (hf : ∀ a, number' (f a) = number a)
    (l : List α) : newestOf number' (l.map f) = (newestOf number l).map f := by
  induction l using List.reverseRecOn with
  | nil => rfl
  | append_singleton l a ih =>
    rw [List.map_append, List.map_singleton, newestOf_concat, newestOf_concat, ih]
    cases newestOf number l with
    | none => rfl
    | some b =>
      simp only [newer, Option.map_some, hf]
      split <;> rfl

/-- Rows whose numbers are all greater come before all others. -/
theorem newestOf_append {l l' : List α} (h : ∀ a ∈ l, ∀ b ∈ l', number a ≤ number b) :
    newestOf number (l ++ l') = (newestOf number l').or (newestOf number l) := by
  cases hn : newestOf number l' with
  | none =>
    rw [newestOf_eq_none] at hn
    simp [hn]
  | some b =>
    obtain ⟨l₁, l₂, rfl, h₁, h₂⟩ := exists_of_newestOf hn
    rw [Option.some_or, newestOf_eq_some_iff]
    refine ⟨l ++ l₁, l₂, by simp, fun c hc => ?_, h₂⟩
    rcases List.mem_append.1 hc with hc | hc
    · exact h c hc b (by simp)
    · exact h₁ c hc

/-- Where numbers never go down, the newest row is the last. -/
theorem newestOf_eq_getLast? {l : List α} (h : l.Pairwise fun a b => number a ≤ number b) :
    newestOf number l = l.getLast? := by
  cases hl : l.getLast? with
  | none => simpa using hl
  | some a =>
    obtain ⟨l₁, rfl⟩ := List.getLast?_eq_some_iff.1 hl
    rw [newestOf_eq_some_iff]
    refine ⟨l₁, [], rfl, fun b hb => ?_, by simp⟩
    exact (List.pairwise_append.1 h).2.2 b hb a (by simp)

/-- Where no number repeats, the order of the rows does not matter. -/
theorem newestOf_perm {l l' : List α} (hp : l.Perm l') (hn : (l.map number).Nodup) :
    newestOf number l = newestOf number l' := by
  cases h' : newestOf number l' with
  | none =>
    rw [newestOf_eq_none] at h' ⊢
    rwa [h', List.perm_nil] at hp
  | some a =>
    have ha : a ∈ l := hp.mem_iff.2 (mem_of_newestOf h')
    cases h : newestOf number l with
    | none => simp [newestOf_eq_none.1 h] at ha
    | some b =>
      have hb : b ∈ l := mem_of_newestOf h
      have hle := le_of_newestOf h ha
      have hge := le_of_newestOf h' (hp.mem_iff.1 hb)
      rw [List.inj_on_of_nodup_map hn hb ha (Int.le_antisymm hge hle)]

/-- The newest row is the last of those that have the greatest number. -/
theorem getLast?_filter_greatest (l : List α) :
    (l.filter fun a => (l.map number).max? = some (number a)).getLast? = newestOf number l := by
  cases h : newestOf number l with
  | none =>
    rw [newestOf_eq_none] at h
    simp [h]
  | some a =>
    have hm : (l.map number).max? = some (number a) := by
      rw [List.max?_eq_some_iff]
      refine ⟨List.mem_map_of_mem (mem_of_newestOf h), fun n hn => ?_⟩
      obtain ⟨b, hb, rfl⟩ := List.mem_map.1 hn
      exact le_of_newestOf h hb
    rw [hm]
    obtain ⟨l₁, l₂, rfl, -, h₂⟩ := exists_of_newestOf h
    have hnil : l₂.filter (fun b => number a = number b) = [] := by
      rw [List.filter_eq_nil_iff]
      intro b hb
      simpa using Int.ne_of_gt (h₂ b hb)
    simp [List.filter_append, hnil]

end Newest

namespace Store

variable {s : Store} {project : String}

theorem Keyed.row?_eq_some (h : s.Keyed) {v : Version} {r : Row} :
    s.row? v = some r ↔ r.version = v ∧ (r.file ∈ s.files ∧ r.file.id = v.file) ∧
      r.revision ∈ s.revisions ∧ r.revision.id = v.revision := by
  simp only [row?, Option.bind_eq_some_iff, Option.map_eq_some_iff, h.find?_file, h.find?_revision]
  constructor
  · rintro ⟨f, hf, r', hr', rfl⟩
    exact ⟨rfl, hf, hr'⟩
  · rintro ⟨rfl, hf, hr⟩
    exact ⟨r.file, hf, r.revision, hr, rfl⟩

theorem Keyed.mem_rowsOfFiles (h : s.Keyed) {r : Row} :
    r ∈ s.rowsOfFiles project ↔ r.version ∈ s.versions ∧
      (r.file ∈ s.files ∧ r.file.id = r.version.file) ∧
      (r.revision ∈ s.revisions ∧ r.revision.id = r.version.revision) ∧ r.file.project = project := by
  simp only [rowsOfFiles, List.mem_filter, List.mem_filterMap, h.row?_eq_some, decide_eq_true_eq]
  constructor
  · rintro ⟨⟨v, hv, rfl, hf, hr⟩, hp⟩
    exact ⟨hv, hf, hr, hp⟩
  · rintro ⟨hv, hf, hr, hp⟩
    exact ⟨⟨r.version, hv, rfl, hf, hr⟩, hp⟩

theorem Keyed.mem_rows (h : s.Keyed) {r : Row} (hr : r ∈ s.rows project) :
    r.file ∈ s.files ∧ r.file.project = project ∧ r.revision ∈ s.revisions ∧
      r.revision.project = project := by
  rw [rows, List.mem_filter, decide_eq_true_eq, h.mem_rowsOfFiles] at hr
  obtain ⟨⟨-, ⟨hf, -⟩, ⟨hr, -⟩, hp⟩, hq⟩ := hr
  exact ⟨hf, hp, hr, hq⟩

/-- What is seen of the versions of a project's files, oldest first. -/
def seen (s : Store) (project : String) : List VisibleFile := (s.rows project).map Row.visible

/-- The versions of a path up to a number. -/
def upTo (path : String) (number : Int) (seen : List VisibleFile) : List VisibleFile :=
  seen.filter fun f => f.path = path ∧ f.number ≤ number

theorem upTo_append (path : String) (number : Int) (l l' : List VisibleFile) :
    upTo path number (l ++ l') = upTo path number l ++ upTo path number l' :=
  List.filter_append l l'

theorem upTo_subset (path : String) (number : Int) (l : List VisibleFile) : upTo path number l ⊆ l :=
  List.filter_sublist.subset

theorem newest?_eq (rows : List Row) :
    newest? rows = newestOf (fun r => r.revision.number) rows := by
  unfold newest? newestOf
  congr 1
  funext best r
  cases best <;> rfl

theorem contentAt_eq (s : Store) (project path : String) (number : Int) :
    s.contentAt project path number =
      newestOf VisibleFile.number (upTo path number (s.seen project)) := by
  rw [contentAt, newest?_eq, upTo, seen, List.filter_map, newestOf_map (fun _ => rfl)]
  rfl

end Store

end VersionedSite
