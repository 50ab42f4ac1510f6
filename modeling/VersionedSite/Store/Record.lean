/-!
# Records of the store

The store holds four tables: the numbered revisions of projects, the files that projects have, the
versions of those files, and the publications of projects. Rows are only ever added, or changed where
they stand; a new row has an id above those of its table. Each table keeps its own rule of uniqueness: a
project has a number once, a path once and a publication once.

* `addRevision_eq_none`, `addFile_eq_none`, `addPublication_eq_none`: a row is refused exactly when
  another one has its place.
* `ne_nextId`: the id of a new row is not in use.
-/

namespace VersionedSite

/-- A numbered point in the history of a project. -/
structure Revision where
  id : Int
  project : String
  number : Int
  /-- Who created it. -/
  user : String
  createdAt : Int
  deriving DecidableEq, Repr

/-- A path of a project, whatever its content. -/
structure FileRecord where
  id : Int
  project : String
  path : String
  /-- The name of the file's role. -/
  role : String
  createdAt : Int
  updatedAt : Int
  deriving DecidableEq, Repr

/-- A file with another role. -/
def FileRecord.recast (f : FileRecord) (now : Int) (role : String) : FileRecord :=
  { f with role, updatedAt := now }

/-- The content of a file as of one revision. -/
structure Version where
  id : Int
  /-- The id of the file. -/
  file : Int
  /-- The id of the revision. -/
  revision : Int
  content : String
  createdAt : Int
  deriving DecidableEq, Repr

/-- The public handle of a project, at a fixed revision number. -/
structure Publication where
  publicId : String
  project : String
  user : String
  number : Int
  createdAt : Int
  updatedAt : Int
  deriving DecidableEq, Repr

/-- A publication that stands at another number. -/
def Publication.repoint (p : Publication) (now number : Int) : Publication :=
  { p with number, updatedAt := now }

/-- The tables, each in the order of its ids. -/
structure Store where
  revisions : List Revision := []
  files : List FileRecord := []
  versions : List Version := []
  publications : List Publication := []
  deriving DecidableEq, Repr

namespace Store

/-- The id of the next row of a table: one more than the greatest of its ids, or than zero. -/
def nextId (ids : List Int) : Int := ids.max?.getD 0 + 1

/-! ## Revisions -/

/-- The revision of a project with a number. -/
def revision? (s : Store) (project : String) (number : Int) : Option Revision :=
  s.revisions.find? fun r => r.project = project ∧ r.number = number

/-- The numbers of a project's revisions. -/
def numbers (s : Store) (project : String) : List Int :=
  (s.revisions.filter fun r => r.project = project).map Revision.number

/-- The greatest number of a project's revisions, or zero. -/
def greatest (s : Store) (project : String) : Int := (s.numbers project).max?.getD 0

/-- The revision of a project with the greatest number. -/
def latest? (s : Store) (project : String) : Option Revision :=
  (s.numbers project).max?.bind (s.revision? project)

/-- The store with one more revision, unless the project has one of that number. -/
def addRevision (s : Store) (now : Int) (project : String) (number : Int) (user : String) :
    Option (Revision × Store) :=
  match s.revision? project number with
  | some _ => none
  | none =>
    let r : Revision :=
      { id := nextId (s.revisions.map Revision.id), project, number, user, createdAt := now }
    some (r, { s with revisions := s.revisions ++ [r] })

/-! ## Files and versions -/

/-- The file of a project at a path. -/
def file? (s : Store) (project path : String) : Option FileRecord :=
  s.files.find? fun f => f.project = project ∧ f.path = path

/-- The store with one more file, unless the project has one at that path. -/
def addFile (s : Store) (now : Int) (project path role : String) : Option (FileRecord × Store) :=
  match s.file? project path with
  | some _ => none
  | none =>
    let f : FileRecord :=
      { id := nextId (s.files.map FileRecord.id), project, path, role, createdAt := now,
        updatedAt := now }
    some (f, { s with files := s.files ++ [f] })

/-- The store in which a file that was found before has a role. -/
def updateFile (s : Store) (now : Int) (found : FileRecord) (role : String) : FileRecord × Store :=
  (found.recast now role,
    { s with files := s.files.map fun f => if f.id = found.id then f.recast now role else f })

/-- The store with one more version. Nothing asks whether its file and revision are there. -/
def addVersion (s : Store) (now : Int) (file revision : Int) (content : String) : Version × Store :=
  let v : Version :=
    { id := nextId (s.versions.map Version.id), file, revision, content, createdAt := now }
  (v, { s with versions := s.versions ++ [v] })

/-! ## Publications -/

/-- The publication with a public id. -/
def publication? (s : Store) (publicId : String) : Option Publication :=
  s.publications.find? fun p => p.publicId = publicId

/-- The publication of a project by a user. -/
def publicationOf? (s : Store) (project user : String) : Option Publication :=
  s.publications.find? fun p => p.project = project ∧ p.user = user

/-- The store with one more publication, unless the project or the public id has one. -/
def addPublication (s : Store) (now : Int) (publicId project user : String) (number : Int) :
    Option (Publication × Store) :=
  if s.publications.any fun p => p.project = project || p.publicId = publicId then none
  else
    let p : Publication := { publicId, project, user, number, createdAt := now, updatedAt := now }
    some (p, { s with publications := s.publications ++ [p] })

/-- The store in which a publication that was found before stands at a number. -/
def updatePublication (s : Store) (now : Int) (found : Publication) (number : Int) :
    Publication × Store :=
  (found.repoint now number,
    { s with publications := s.publications.map fun p =>
        if p.publicId = found.publicId then p.repoint now number else p })

/-! ## Laws -/

theorem lt_nextId {ids : List Int} {i : Int} (h : i ∈ ids) : i < nextId ids := by
  unfold nextId
  cases hm : ids.max? with
  | none => simp [List.max?_eq_none_iff.1 hm] at h
  | some m => exact Int.lt_add_one_of_le ((List.max?_eq_some_iff.1 hm).2 i h)

/-- The next id is not that of a row. -/
theorem ne_nextId {α : Type} {table : List α} {id : α → Int} {a : α} (h : a ∈ table) :
    id a ≠ nextId (table.map id) :=
  Int.ne_of_lt (lt_nextId (List.mem_map_of_mem h))

theorem addRevision_eq_none {s : Store} {now : Int} {project : String} {number : Int}
    {user : String} :
    s.addRevision now project number user = none ↔
      ∃ r ∈ s.revisions, r.project = project ∧ r.number = number := by
  unfold addRevision
  cases h : s.revision? project number with
  | none =>
    simp only [revision?, List.find?_eq_none, decide_eq_true_eq] at h
    simpa using h
  | some r =>
    have hm := List.mem_of_find?_eq_some h
    have hr := List.find?_some h
    simp only [decide_eq_true_eq] at hr
    simpa using ⟨r, hm, hr⟩

theorem addFile_eq_none {s : Store} {now : Int} {project path role : String} :
    s.addFile now project path role = none ↔
      ∃ f ∈ s.files, f.project = project ∧ f.path = path := by
  unfold addFile
  cases h : s.file? project path with
  | none =>
    simp only [file?, List.find?_eq_none, decide_eq_true_eq] at h
    simpa using h
  | some f =>
    have hm := List.mem_of_find?_eq_some h
    have hf := List.find?_some h
    simp only [decide_eq_true_eq] at hf
    simpa using ⟨f, hm, hf⟩

theorem addPublication_eq_none {s : Store} {now : Int} {publicId project user : String}
    {number : Int} :
    s.addPublication now publicId project user number = none ↔
      ∃ p ∈ s.publications, p.project = project ∨ p.publicId = publicId := by
  unfold addPublication
  split
  · rename_i h
    simpa only [List.any_eq_true, Bool.or_eq_true, decide_eq_true_eq, true_iff] using h
  · rename_i h
    simpa only [List.any_eq_true, Bool.or_eq_true, decide_eq_true_eq, reduceCtorEq, false_iff]
      using h

end Store

end VersionedSite
