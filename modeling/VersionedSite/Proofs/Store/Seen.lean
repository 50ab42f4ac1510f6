import VersionedSite.Proofs.Store.Newest

/-!
# What writes show

Of the four writes only one shows anything new: an insertion of a version (`Sound.seen_addVersion`). A
file that is given a role shows it on all its versions (`Sound.seen_updateFile`), and insertions of
revisions and files show nothing (`Sound.seen_addRevision`, `Sound.seen_addFile`).
-/

namespace VersionedSite

/-- A stored file in a role, if it is the one at a path. -/
def VisibleFile.recast (path role : String) (f : VisibleFile) : VisibleFile :=
  if f.path = path then { f with role } else f

namespace Store

variable {s t : Store} {now : Int} {project : String}

/-- What is seen is of a file of the project, in the file's role, and of a revision of the project. -/
theorem Keyed.of_mem_seen (h : s.Keyed) {v : VisibleFile} (hv : v ∈ s.seen project) :
    (∃ f ∈ s.files, f.project = project ∧ f.path = v.path ∧ f.role = v.role) ∧
      v.number ∈ s.numbers project := by
  obtain ⟨r, hr, rfl⟩ := List.mem_map.1 hv
  obtain ⟨hf, hfp, hm, hp⟩ := h.mem_rows hr
  exact ⟨⟨r.file, hf, hfp, rfl, rfl⟩, mem_numbers.2 ⟨r.revision, hm, hp, rfl⟩⟩

theorem Keyed.le_greatest_of_mem_seen (h : s.Keyed) {v : VisibleFile} (hv : v ∈ s.seen project) :
    v.number ≤ s.greatest project :=
  le_greatest (h.of_mem_seen hv).2

theorem rows_eq_filterMap (s : Store) (project : String) :
    s.rows project = (s.versions.filterMap s.row?).filter fun r =>
      r.revision.project = project ∧ r.file.project = project := by
  simp only [rows, rowsOfFiles, List.filter_filter, Bool.decide_and]

/-- Nothing else is seen where every version has the row that it had. -/
theorem seen_congr (hv : t.versions = s.versions) (h : ∀ v ∈ s.versions, t.row? v = s.row? v) :
    t.seen project = s.seen project := by
  rw [seen, seen, rows_eq_filterMap, rows_eq_filterMap, hv, List.filterMap_congr h]

theorem find?_append_of_mem {α : Type} {l : List α} {p : α → Bool} (h : ∃ a ∈ l, p a = true)
    (l' : List α) : (l ++ l').find? p = l.find? p := by
  rw [List.find?_append, Option.or_of_isSome]
  exact List.find?_isSome.2 h

theorem Sound.seen_addRevision (h : s.Sound) {owner user : String} {number : Int} {r : Revision}
    (ha : s.addRevision now owner number user = some (r, t)) : t.seen project = s.seen project := by
  obtain ⟨-, rfl, rfl⟩ := addRevision_eq_some.1 ha
  refine seen_congr rfl fun v hv => ?_
  obtain ⟨r, hr, he⟩ := h.revision_mem v hv
  simp only [row?]
  rw [find?_append_of_mem ⟨r, hr, decide_eq_true he⟩]

theorem Sound.seen_addFile (h : s.Sound) {owner path role : String} {f : FileRecord}
    (ha : s.addFile now owner path role = some (f, t)) : t.seen project = s.seen project := by
  obtain ⟨-, rfl, rfl⟩ := addFile_eq_some.1 ha
  refine seen_congr rfl fun v hv => ?_
  obtain ⟨f, hf, he⟩ := h.file_mem v hv
  simp only [row?]
  rw [find?_append_of_mem ⟨f, hf, decide_eq_true he⟩]

/-! ## Roles -/

/-- A row whose file is given a role if it is a certain one. -/
def Row.regarding (found : FileRecord) (now : Int) (role : String) (r : Row) : Row :=
  { r with file := if r.file.id = found.id then r.file.recast now role else r.file }

theorem row?_updateFile (found : FileRecord) (role : String) (v : Version) :
    (s.updateFile now found role).2.row? v = (s.row? v).map (Row.regarding found now role) := by
  have hfind : (s.updateFile now found role).2.files.find? (fun f => f.id = v.file) =
      (s.files.find? fun f => f.id = v.file).map fun f =>
        if f.id = found.id then f.recast now role else f := by
    rw [updateFile_files, List.find?_map]
    refine congrArg (Option.map _) (congrArg (List.find? · _) (funext fun f => ?_))
    dsimp only [Function.comp]
    split <;> rfl
  simp only [row?, hfind]
  cases s.files.find? fun f => f.id = v.file with
  | none => rfl
  | some f =>
    change (s.revisions.find? fun r => r.id = v.revision).map _ = _
    cases s.revisions.find? fun r => r.id = v.revision <;> rfl

theorem seen_updateFile_eq_map (found : FileRecord) (role : String) :
    (s.updateFile now found role).2.seen project =
      (s.rows project).map fun r => (r.regarding found now role).visible := by
  have hrows : (s.updateFile now found role).2.rows project =
      (s.rows project).map (Row.regarding found now role) := by
    rw [rows_eq_filterMap, rows_eq_filterMap, funext (row?_updateFile found role),
      ← List.map_filterMap, List.filter_map]
    refine congrArg (List.map _) (List.filter_congr fun r _ => ?_)
    dsimp only [Function.comp, Row.regarding]
    split <;> rfl
  rw [seen, hrows, List.map_map]
  rfl

/-- A file that was found before and is still there shows its new role on all its versions. -/
theorem Sound.seen_updateFile (h : s.Sound) {f found : FileRecord} (hf : f ∈ s.files)
    (hi : f.id = found.id) (role : String) :
    (s.updateFile now found role).2.seen project =
      if f.project = project then (s.seen project).map (VisibleFile.recast f.path role)
      else s.seen project := by
  rw [seen_updateFile_eq_map, seen, List.map_map]
  split
  · rename_i hp
    refine List.map_congr_left fun r hr => ?_
    obtain ⟨hm, hrp, -⟩ := h.mem_rows hr
    by_cases he : r.file.path = f.path
    · have hrf : r.file = f := h.file_ext_path hm hf (hrp.trans hp.symm) he
      simp [Row.regarding, Row.visible, VisibleFile.recast, hrf, hi, FileRecord.recast]
    · have hne : r.file.id ≠ found.id := fun hid => he (by rw [h.file_ext hm hf (hid.trans hi.symm)])
      simp [Row.regarding, Row.visible, VisibleFile.recast, he, hne]
  · rename_i hp
    refine List.map_congr_left fun r hr => ?_
    obtain ⟨hm, hrp, -⟩ := h.mem_rows hr
    have hne : r.file.id ≠ found.id := fun hid =>
      hp (by rw [← h.file_ext hm hf (hid.trans hi.symm), hrp])
    simp [Row.regarding, hne]

/-! ## Versions -/

theorem Sound.seen_addVersion (h : s.Sound) {f : FileRecord} {r : Revision} (hf : f ∈ s.files)
    (hr : r ∈ s.revisions) (hp : r.project = f.project) (content : String) :
    (s.addVersion now f.id r.id content).2.seen project = s.seen project ++
      if f.project = project then
        [{ path := f.path, role := f.role, content, number := r.number }]
      else [] := by
  have hrow : (s.addVersion now f.id r.id content).2.row? (s.addVersion now f.id r.id content).1 =
      some { version := (s.addVersion now f.id r.id content).1, file := f, revision := r } := by
    change s.row? _ = _
    exact h.row?_eq_some.2 ⟨rfl, ⟨hf, rfl⟩, hr, rfl⟩
  have hrows : (s.addVersion now f.id r.id content).2.versions.filterMap
        (s.addVersion now f.id r.id content).2.row? =
      s.versions.filterMap s.row? ++
        [{ version := (s.addVersion now f.id r.id content).1, file := f, revision := r }] := by
    rw [show (s.addVersion now f.id r.id content).2.versions =
      s.versions ++ [(s.addVersion now f.id r.id content).1] from rfl, List.filterMap_append,
      List.filterMap_cons, hrow]
    rfl
  rw [seen, seen, rows_eq_filterMap, rows_eq_filterMap, hrows, List.filter_append, List.map_append]
  congr 1
  by_cases hq : f.project = project <;> simp [hp, hq, Row.visible, Store.addVersion]

end Store

end VersionedSite
