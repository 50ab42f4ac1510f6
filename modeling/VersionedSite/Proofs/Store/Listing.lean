import VersionedSite.Proofs.OrderedMap
import VersionedSite.Proofs.Store.Newest

/-!
# Listings of the store

In a store whose keys do not repeat and whose versions stay within their projects (`Store.Coherent`), a
listing shows of each path the newest version that counts for it (`mem_newestPerPath`), in the order of
the paths (`pairwise_newestPerPath`). So the listing at a number, the content of one path at a number
and the listing without one path are three views of the same (`filesAt_contentAt_filesExcept`).
-/

namespace VersionedSite.Store

/-- Every version is of a file at a revision of the file's own project. -/
def Coherent (s : Store) : Prop :=
  ∀ v ∈ s.versions, ∃ f ∈ s.files, ∃ r ∈ s.revisions,
    f.id = v.file ∧ r.id = v.revision ∧ f.project = r.project

variable {s : Store} {project : String}

/-! ## Rows -/

theorem Coherent.rows_eq (hc : s.Coherent) (h : s.Keyed) : s.rows project = s.rowsOfFiles project := by
  refine List.filter_eq_self.2 fun r hr => ?_
  obtain ⟨hv, ⟨hf, hfi⟩, ⟨hr, hri⟩, hp⟩ := h.mem_rowsOfFiles.1 hr
  obtain ⟨f', hf', r', hr', hfi', hri', hpp⟩ := hc _ hv
  rw [h.file_ext hf' hf (hfi'.trans hfi.symm), h.revision_ext hr' hr (hri'.trans hri.symm)] at hpp
  rw [decide_eq_true_eq, ← hpp, hp]

/-- Versions of one project's files are of one file if they are at one path. -/
theorem Keyed.file_eq_of_path (h : s.Keyed) {r r' : Row} (hr : r ∈ s.rows project)
    (hr' : r' ∈ s.rows project) (hq : r.file.path = r'.file.path) : r.file = r'.file := by
  obtain ⟨hf, hp, -⟩ := h.mem_rows hr
  obtain ⟨hf', hp', -⟩ := h.mem_rows hr'
  exact h.file_ext_path hf hf' (hp.trans hp'.symm) hq

/-! ## Order -/

/-- Sorting leaves alike rows in their order. -/
theorem filter_mergeSort {α : Type} {le : α → α → Bool} {p : α → Bool}
    (trans : ∀ a b c, le a b = true → le b c = true → le a c = true)
    (total : ∀ a b, (le a b || le b a) = true)
    (alike : ∀ a b, p a = true → p b = true → le a b = true) (l : List α) :
    (l.mergeSort le).filter p = l.filter p := by
  have hsorted : (l.filter p).Pairwise fun a b => le a b = true := by
    refine List.pairwise_of_forall_mem_list fun a ha b hb => ?_
    exact alike a b (List.mem_filter.1 ha).2 (List.mem_filter.1 hb).2
  have hsub := (List.sublist_mergeSort trans total hsorted List.filter_sublist).filter p
  rw [List.filter_filter, show (fun a => p a && p a) = p from funext fun a => Bool.and_self _] at hsub
  exact (hsub.eq_of_length ((List.mergeSort_perm l le).filter p).length_eq.symm).symm

/-- The order in which a listing goes through rows. -/
def byPath (a b : Row) : Bool := decide (a.file.path ≤ b.file.path)

theorem byPath_trans (a b c : Row) (hab : byPath a b = true) (hbc : byPath b c = true) :
    byPath a c = true := by
  simp only [byPath, decide_eq_true_eq] at hab hbc ⊢
  exact String.le_trans hab hbc

theorem byPath_total (a b : Row) : (byPath a b || byPath b a) = true := by
  simp only [byPath, Bool.or_eq_true, decide_eq_true_eq]
  exact String.le_total _ _

/-- The rows that a listing shows, in the order of their paths. -/
def shown (s : Store) (project : String) (counts : Row → Bool) : List Row :=
  (s.rows project).filter fun r =>
    greatestOf ((s.rowsOfFiles project).filter counts) r.file.id = some r.revision.number

/-- A listing by the paths of its rows. -/
def listing (s : Store) (project : String) (counts : Row → Bool) :
    OrderedMap String VisibleFile :=
  .ofList (((s.shown project counts).mergeSort byPath).map fun r => (r.file.path, r.visible))

theorem newestPerPath_eq (counts : Row → Bool) :
    s.newestPerPath project counts = (s.listing project counts).values := rfl

theorem path_of_mem_listing {counts : Row → Bool} {e : String × VisibleFile}
    (h : e ∈ (s.listing project counts).entries) : e.2.path = e.1 := by
  refine OrderedMap.forall_entries_ofList (P := fun k f => f.path = k) (fun e he => ?_) e h
  obtain ⟨r, -, rfl⟩ := List.mem_map.1 he
  rfl

theorem map_path_newestPerPath (counts : Row → Bool) :
    (s.newestPerPath project counts).map VisibleFile.path = (s.listing project counts).keys := by
  rw [newestPerPath_eq, OrderedMap.values, OrderedMap.keys, List.map_map]
  exact List.map_congr_left fun e he => path_of_mem_listing he

theorem nodup_path_newestPerPath (counts : Row → Bool) :
    ((s.newestPerPath project counts).map VisibleFile.path).Nodup := by
  rw [map_path_newestPerPath]
  exact OrderedMap.nodup_keys_ofList _

/-- A listing goes up strictly in the order of paths. -/
theorem pairwise_newestPerPath (counts : Row → Bool) :
    (s.newestPerPath project counts).Pairwise fun f g => f.path ≤ g.path ∧ f.path ≠ g.path := by
  rw [← List.pairwise_map (f := VisibleFile.path) (R := fun p q => p ≤ q ∧ p ≠ q),
    List.pairwise_and_iff]
  refine ⟨?_, nodup_path_newestPerPath counts⟩
  rw [map_path_newestPerPath]
  refine List.Pairwise.sublist (OrderedMap.sublist_keys_ofList _) ?_
  rw [List.map_map, List.pairwise_map]
  refine (List.pairwise_mergeSort byPath_trans byPath_total _).imp fun hab => ?_
  exact of_decide_eq_true hab

/-- Two lists that go up strictly in the order of paths and hold the same are equal. -/
theorem listing_ext {α : Type} {path : α → String} {l l' : List α}
    (h : l.Pairwise fun a b => path a ≤ path b ∧ path a ≠ path b)
    (h' : l'.Pairwise fun a b => path a ≤ path b ∧ path a ≠ path b)
    (hm : ∀ a, a ∈ l ↔ a ∈ l') : l = l' := by
  have nodup : ∀ {l : List α}, (l.Pairwise fun a b => path a ≤ path b ∧ path a ≠ path b) → l.Nodup :=
    fun h => h.imp fun {a b} hab (he : a = b) => hab.2 (congrArg _ he)
  refine List.Perm.eq_of_pairwise (fun a b _ _ hab hba => ?_) h h'
    ((List.perm_ext_iff_of_nodup (nodup h) (nodup h')).2 hm)
  exact absurd (String.le_antisymm hab.1 hba.1) hab.2

/-! ## What is listed -/

/-- Whether a version counts depends on its file and its number only. -/
def ByFileAndNumber (counts : Row → Bool) : Prop :=
  ∀ r r' : Row, r.file = r'.file → r.revision.number = r'.revision.number → counts r = counts r'

theorem greatestOf_eq (h : s.Keyed) {r : Row} (hr : r ∈ s.rows project) (counts : Row → Bool) :
    greatestOf ((s.rows project).filter counts) r.file.id =
      (((s.rows project).filter fun r' => r'.file.path = r.file.path ∧ counts r').map
        fun r => r.revision.number).max? := by
  rw [greatestOf, List.filter_filter]
  congr 2
  refine List.filter_congr fun r' hr' => ?_
  have hsame : r'.file.id = r.file.id ↔ r'.file.path = r.file.path := by
    refine ⟨fun he => ?_, fun he => ?_⟩
    · rw [h.file_ext (h.mem_rows hr').1 (h.mem_rows hr).1 he]
    · rw [h.file_eq_of_path hr' hr he]
  simp [hsame]

/-- Of the rows that a listing shows, those at a path are those that have the greatest number among the
rows at the path that count. -/
theorem filter_shown (h : s.Keyed) (hc : s.Coherent) {counts : Row → Bool}
    (hb : ByFileAndNumber counts) (path : String) :
    (s.shown project counts).filter (fun r => r.file.path = path) =
      let counted := (s.rows project).filter fun r => r.file.path = path ∧ counts r
      counted.filter fun r =>
        (counted.map fun r => r.revision.number).max? = some r.revision.number := by
  simp only [shown, List.filter_filter, ← hc.rows_eq h]
  refine List.filter_congr fun r hr => ?_
  rw [Bool.eq_iff_iff]
  simp only [Bool.and_eq_true, decide_eq_true_eq]
  constructor
  · rintro ⟨rfl, hg⟩
    rw [greatestOf_eq h hr] at hg
    refine ⟨hg, rfl, ?_⟩
    -- The greatest number is that of a row which counts, so every row of the file with it counts.
    obtain ⟨r', hr', hn⟩ := List.mem_map.1 (List.max?_eq_some_iff.1 hg).1
    rw [List.mem_filter, decide_eq_true_eq] at hr'
    rw [← hb r' r (h.file_eq_of_path hr'.1 hr hr'.2.1) hn]
    exact hr'.2.2
  · rintro ⟨hg, rfl, -⟩
    rw [greatestOf_eq h hr]
    exact ⟨rfl, hg⟩

/-- A listing shows of each path the newest version that counts. -/
theorem mem_newestPerPath (h : s.Keyed) (hc : s.Coherent) {counts : Row → Bool}
    (hb : ByFileAndNumber counts) {f : VisibleFile} :
    f ∈ s.newestPerPath project counts ↔
      (newest? ((s.rows project).filter fun r => r.file.path = f.path ∧ counts r)).map Row.visible =
        some f := by
  have hfind : (s.listing project counts).find? f.path =
      (newest? ((s.rows project).filter fun r => r.file.path = f.path ∧ counts r)).map
        Row.visible := by
    rw [listing, OrderedMap.find?_ofList, List.filter_map, List.getLast?_map, Option.map_map]
    congr 1
    rw [newest?_eq, ← getLast?_filter_greatest, ← filter_shown h hc hb f.path]
    refine congrArg List.getLast? (filter_mergeSort byPath_trans byPath_total ?_ _)
    intro a b ha hb'
    simp only [Function.comp, decide_eq_true_eq] at ha hb'
    simp [byPath, ha, hb']
  have hkeys : (s.listing project counts).keys.Nodup := OrderedMap.nodup_keys_ofList _
  rw [← hfind, newestPerPath_eq, OrderedMap.values, List.mem_map, OrderedMap.find?_eq_some_iff hkeys]
  constructor
  · rintro ⟨e, he, rfl⟩
    rw [path_of_mem_listing he]
    exact he
  · intro he
    exact ⟨_, he, rfl⟩

theorem mem_filesAt (h : s.Keyed) (hc : s.Coherent) {number : Int} {f : VisibleFile} :
    f ∈ s.filesAt project number ↔ s.contentAt project f.path number = some f := by
  rw [filesAt, mem_newestPerPath h hc]
  · simp only [contentAt, decide_eq_true_eq]
  · intro r r' _ hn
    simp only [hn]

theorem number_le_of_mem_rows (h : s.Keyed) {number : Int}
    (hn : ∀ r, s.latest? project = some r → r.number ≤ number) {r : Row} (hr : r ∈ s.rows project) :
    r.revision.number ≤ number := by
  obtain ⟨-, -, hm, hp⟩ := h.mem_rows hr
  obtain ⟨latest, hl, hle⟩ := exists_latest? (mem_numbers.2 ⟨_, hm, hp, rfl⟩)
  exact Int.le_trans hle (hn latest hl)

theorem mem_filesExcept (h : s.Keyed) (hc : s.Coherent) {path : String} {number : Int}
    (hn : ∀ r, s.latest? project = some r → r.number ≤ number) {f : VisibleFile} :
    f ∈ s.filesExcept project path ↔
      s.contentAt project f.path number = some f ∧ f.path ≠ path := by
  rw [filesExcept, mem_newestPerPath h hc (fun r r' hf _ => by simp only [hf]), contentAt]
  by_cases hp : f.path = path
  · have hnil : (s.rows project).filter
        (fun r => r.file.path = f.path ∧ decide (r.file.path ≠ path) = true) = [] := by
      rw [List.filter_eq_nil_iff]
      simp [hp]
    rw [hnil]
    simp [hp, newest?]
  · have hsame : (s.rows project).filter
        (fun r => r.file.path = f.path ∧ decide (r.file.path ≠ path) = true) =
        (s.rows project).filter fun r => r.file.path = f.path ∧ r.revision.number ≤ number := by
      refine List.filter_congr fun r hr => ?_
      have hle := number_le_of_mem_rows h hn hr
      by_cases hq : r.file.path = f.path <;> simp [hq, hp, hle]
    rw [hsame]
    simp [hp]

/-- The three views of what a project's files hold agree: the listing at a number, the content of one
path at a number, and the listing of the newest without one path. -/
theorem filesAt_contentAt_filesExcept (s : Store) (h : s.Keyed) (hc : s.Coherent) (project path : String) :
    (∀ number, ((s.filesAt project number).map VisibleFile.path).Nodup ∧
      ∀ f, (f ∈ s.filesAt project number ∧ f.path = path) ↔
        s.contentAt project path number = some f) ∧
      ∀ number, (∀ r, s.latest? project = some r → r.number ≤ number) →
        s.filesExcept project path = (s.filesAt project number).filter fun f => f.path ≠ path := by
  refine ⟨fun number => ⟨nodup_path_newestPerPath _, fun f => ?_⟩, fun number hn => ?_⟩
  · rw [mem_filesAt h hc]
    constructor
    · rintro ⟨hf, rfl⟩
      exact hf
    · intro hf
      have hp := (number_contentAt_le hf).1
      exact ⟨hp ▸ hf, hp⟩
  · refine listing_ext (pairwise_newestPerPath _) ((pairwise_newestPerPath _).filter _) fun f => ?_
    rw [mem_filesExcept h hc hn, List.mem_filter, mem_filesAt h hc, decide_eq_true_eq]

/-! ## Two projects that take turns -/

/-- One project writes its page twice at its second revision, and a section only at its third. -/
def interleaved : Store where
  revisions :=
    [{ id := 1, project := "shop", number := 1, user := "ann", createdAt := 0 },
     { id := 2, project := "blog", number := 1, user := "bob", createdAt := 0 },
     { id := 3, project := "shop", number := 2, user := "ann", createdAt := 0 },
     { id := 4, project := "shop", number := 3, user := "ann", createdAt := 0 }]
  files :=
    [{ id := 1, project := "shop", path := "pages/home.html", role := "page", createdAt := 0
       updatedAt := 0 },
     { id := 2, project := "blog", path := "pages/home.html", role := "page", createdAt := 0
       updatedAt := 0 },
     { id := 3, project := "shop", path := "sections/news.html", role := "section", createdAt := 0
       updatedAt := 0 }]
  versions :=
    [{ id := 1, file := 1, revision := 1, content := "old", createdAt := 0 },
     { id := 2, file := 2, revision := 2, content := "other", createdAt := 0 },
     { id := 3, file := 1, revision := 3, content := "first", createdAt := 0 },
     { id := 4, file := 1, revision := 3, content := "second", createdAt := 0 },
     { id := 5, file := 3, revision := 4, content := "news", createdAt := 0 }]

theorem keyed_interleaved : interleaved.Keyed where
  revisionIds := by decide
  fileIds := by decide
  numbers := by decide
  paths := by decide

theorem coherent_interleaved : interleaved.Coherent := by
  unfold Coherent
  decide

theorem filesAt_contentAt_filesExcept_interleaved :
    { path := "pages/home.html", role := "page", content := "second", number := 2 } ∈
        interleaved.filesAt "shop" 2 ∧
      interleaved.filesExcept "shop" "pages/home.html" =
        (interleaved.filesAt "shop" 3).filter fun f => f.path ≠ "pages/home.html" := by
  obtain ⟨hat, hexcept⟩ := filesAt_contentAt_filesExcept interleaved keyed_interleaved
    coherent_interleaved "shop" "pages/home.html"
  have hcontent : interleaved.contentAt "shop" "pages/home.html" 2 =
      some { path := "pages/home.html", role := "page", content := "second", number := 2 } := by
    decide
  refine ⟨(((hat 2).2 _).2 hcontent).1, hexcept 3 fun r hr => ?_⟩
  rw [(latest?_eq_some hr).2.2]
  decide

end VersionedSite.Store
