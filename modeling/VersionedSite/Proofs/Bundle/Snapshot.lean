import VersionedSite.Bundle.Build
import VersionedSite.Proofs.Imports.Walk
import VersionedSite.Proofs.Text.Lowercase

/-!
# Serving nothing but the snapshot

The walk that collects a graph and the answers that the bundler is given agree on what a project
specifier is and on where each one leads. Whatever the bundler asks and in whatever order, it gets a
project module from the snapshot or a stand-in (`Request.Served`).

* `beginsAsProject_eq`: the two tests of a specifier are the same.
* `findMatch?_ne_empty`: what stands for a path that is not empty is not empty.
* `run_course`: a run with its entry answers each query on its own.
* `resolve_ofGraph`: where a project specifier of a project file leads.
* `serves_collect`: the whole of what the request of a collected graph is answered with.
-/

namespace VersionedSite

/-! ## Matches -/

namespace Imports

theorem foldedPath_empty : foldedPath "" = [] := rfl

theorem foldedBase_empty : foldedBase "" = [] := by decide

theorem matchFrom_ne_empty {request base : List Char} {found : Candidates} {stored : List String}
    {path : String} (hr : request ≠ []) (hi : found.byIndex ≠ some "")
    (h : matchFrom request base found stored = some path) : path ≠ "" := by
  induction stored generalizing found with
  | nil =>
    rintro rfl
    simp only [matchFrom, Candidates.best?] at h
    split at h
    · split at h
      · exact hi h
      · rename_i hne
        exact hne (Option.some.inj h)
    · exact hi h
  | cons p rest ih =>
    rw [matchFrom] at h
    split at h
    · rename_i hp
      rintro rfl
      cases h
      exact hr (hp ▸ foldedPath_empty)
    · refine ih ?_ h
      intro he
      simp only [Candidates.step] at he
      cases hindex : found.byIndex with
      | some q =>
        rw [hindex] at he
        exact hi (hindex.trans he)
      | none =>
        rw [hindex, Option.orElse_eq_orElse, Option.orElse_none] at he
        split at he
        · rename_i hbase
          cases he
          rw [foldedBase_empty] at hbase
          exact absurd (List.append_eq_nil_iff.1 hbase.symm).2 (by decide)
        · cases he

/-- What stands for a path that is not empty is not empty. -/
theorem findMatch?_ne_empty {requested path : String} {stored : List String} (hr : requested ≠ "")
    (h : findMatch? requested stored = some path) : path ≠ "" :=
  matchFrom_ne_empty (Text.lower_ne_nil (mt String.toList_eq_nil_iff.1 hr)) (by simp) h

end Imports

namespace ImportGraph

variable {snapshot : Snapshot} {entry path : String}

theorem target?_ne_empty {importer spec target : String}
    (h : target? snapshot importer spec = some target) : target ≠ "" := by
  obtain ⟨requested, hr, hm⟩ := Option.bind_eq_some_iff.1 h
  refine Imports.findMatch?_ne_empty ?_ hm
  rintro rfl
  exact absurd (Imports.resolve?_canonical hr) (by decide)

end ImportGraph

namespace Bundle

open ImportGraph

variable {r : Request} {i : Installation} {known : Known}

/-! ## Specifiers -/

/-- Whoever collects a graph and whoever answers the bundler take the same specifiers for ones of the
project. -/
theorem beginsAsProject_eq (spec : String) : beginsAsProject spec.toList = Imports.isProject spec := by
  rw [Bool.eq_iff_iff, Imports.isProject_iff]
  generalize spec.toList = s
  constructor
  · intro h
    unfold beginsAsProject at h
    split at h
    · exact .inl ⟨_, rfl⟩
    · exact .inr (.inl ⟨_, rfl⟩)
    · exact .inr (.inr ⟨_, rfl⟩)
    · cases h
  · rintro (⟨rest, rfl⟩ | ⟨rest, rfl⟩ | ⟨rest, rfl⟩) <;> rfl

theorem ne_of_isProject {spec : String} (h : Imports.isProject spec = true) :
    spec ≠ mountSpecifier ∧ spec ≠ entrySpecifier := by
  constructor <;> rintro rfl <;> revert h <;> decide

theorem resolve_eq_resolveProject {q : Question} (hq : Imports.isProject q.path = true)
    (hs : q.space = projectSpace) :
    r.resolve i known q = r.resolveProject q.importerText q.path := by
  obtain ⟨hmount, hentry⟩ := ne_of_isProject hq
  rw [Request.resolve, if_neg hmount, if_neg hentry, beginsAsProject_eq, if_pos hq, if_pos hs]

/-! ## Runs -/

/-- What a query is answered on its own. -/
def Request.answer (r : Request) (i : Installation) (known : Known) : Query → Answer
  | .resolve q => .resolved (r.resolve i known q).answer
  | .load path space => .loaded (r.load i path space)

/-- The warnings that a query leads to. -/
def Request.complaints (r : Request) (i : Installation) (known : Known) : Query → List String
  | .resolve q => (r.resolve i known q).warnings
  | .load _ _ => []

theorem Course.step_answers (c : Course) (q : Query) :
    (c.step r i known q).answers = c.answers ++ [r.answer i known q] := by
  cases q <;> rfl

theorem Course.step_warnings (c : Course) (q : Query) :
    (c.step r i known q).warnings = c.warnings ++ r.complaints i known q := by
  cases q with
  | resolve q => rfl
  | load path space => exact (List.append_nil _).symm

theorem Course.foldl_step (queries : List Query) (c : Course) :
    (queries.foldl (Course.step r i known) c).answers = c.answers ++ queries.map (r.answer i known) ∧
      (queries.foldl (Course.step r i known) c).warnings =
        c.warnings ++ queries.flatMap (r.complaints i known) := by
  induction queries generalizing c with
  | nil => simp
  | cons q queries ih =>
    obtain ⟨hanswers, hwarnings⟩ := ih (c.step r i known q)
    rw [List.foldl_cons, hanswers, hwarnings, Course.step_answers, Course.step_warnings]
    simp

/-- A run with its entry comes to a build, in which no query changes what another one is answered. -/
theorem run_course (h : r.files.contains r.entry = true) (i : Installation) (known : Known)
    (queries : List Query) (conclusion : Conclusion) :
    ∃ course, (run r i known queries conclusion).course = some course ∧
      course.answers = queries.map (r.answer i known) ∧
      course.warnings = queries.flatMap (r.complaints i known) := by
  refine ⟨queries.foldl (Course.step r i known) {}, ?_, ?_⟩
  · rw [run, if_pos h]
    cases conclusion with
    | failed message => rfl
    | finished warnings outputs => cases outputs <;> rfl
  · simpa using Course.foldl_step queries {}

/-! ## What is served -/

/-- The modules of project and stand-ins that a build comes to: the entry, and where the project
specifiers of project modules lead, in whatever way they are asked about. -/
inductive Request.Served (r : Request) (i : Installation) (known : Known) : (path space : String) → Prop
  | entry {path space : String} {q : Question} (hq : q.path = entrySpecifier)
      (h : (r.resolve i known q).answer = .ok (some (.inSpace path space))) : Served r i known path space
  | next {importer path space : String} {q : Question} (hm : Served r i known importer projectSpace)
      (hi : q.importer = some importer) (hs : q.space = projectSpace)
      (hq : Imports.isProject q.path = true)
      (h : (r.resolve i known q).answer = .ok (some (.inSpace path space))) : Served r i known path space

/-- Whether a module is a file of the snapshot with its source, or the stand-in. -/
def Request.LoadsFrom (r : Request) (i : Installation) (snapshot : Snapshot) (path space : String) :
    Prop :=
  (space = projectSpace ∧ ∃ source module, snapshot.find? path = some source ∧
    r.load i path space = some module ∧ module.contents = some (.str source)) ∨
  (space = missingSpace ∧ ∃ module, r.load i path space = some module ∧
    module.contents = some (.str missingSource))

section Collected

variable {snapshot : Snapshot} {entry path : String} (limits : Limits) (target : Target)
  (h : Imports.findMatch? entry snapshot.keys = some path)

include h

theorem entry_mem_collect :
    (collect entry snapshot limits).entry ∈ (collect entry snapshot limits).files.keys := by
  obtain ⟨level, hw⟩ := exists_settled_collect limits h
  have hentry : (collect entry snapshot limits).entry = path := hw.entry_eq
  rw [hentry]
  exact hw.root_mem

/-- The request resolves what the graph does: no target is empty, and all of them are files of the
graph. -/
theorem resolution?_ofGraph (importer spec : String) :
    (Request.ofGraph target (collect entry snapshot limits)).resolution? importer spec =
      (collect entry snapshot limits).resolution? importer spec := by
  obtain ⟨level, hw⟩ := exists_settled_collect limits h
  show ((collect entry snapshot limits).resolution? importer spec).filter _ = _
  cases hr : (collect entry snapshot limits).resolution? importer spec with
  | none => rfl
  | some m =>
    obtain ⟨-, ht, hm⟩ := (hw.resolution_iff importer spec m).1 hr
    rw [Option.filter_some, if_pos]
    simp [target?_ne_empty ht, Request.ofGraph, OrderedMap.contains_iff.2 hm]

/-- A file of the graph is loaded with its source in the snapshot. -/
theorem loadsFrom_file {m : String} (hm : m ∈ (collect entry snapshot limits).files.keys) :
    (Request.ofGraph target (collect entry snapshot limits)).LoadsFrom i snapshot m projectSpace := by
  obtain ⟨level, hw⟩ := exists_settled_collect limits h
  obtain ⟨source, hs⟩ := OrderedMap.exists_find?_of_mem hm
  exact .inl ⟨rfl, source, _, (hw.find?_eq hm).symm.trans hs, rfl, loadProject_of_file hs⟩

omit h in
theorem loadsFrom_missing (m : String) : r.LoadsFrom i snapshot m missingSpace :=
  .inr ⟨rfl, _, rfl, rfl⟩

/-- A project specifier of a project file leads to the file that the graph resolves it to, or with a
warning to a stand-in. -/
theorem resolve_ofGraph (i : Installation) (known : Known) {q : Question}
    (hq : Imports.isProject q.path = true) (hs : q.space = projectSpace) :
    (∃ m, (collect entry snapshot limits).resolution? q.importerText q.path = some m ∧
      m ∈ (collect entry snapshot limits).files.keys ∧
      (Request.ofGraph target (collect entry snapshot limits)).resolve i known q =
        .of (some (.inSpace m projectSpace))) ∨
    ((collect entry snapshot limits).resolution? q.importerText q.path = none ∧
      (Request.ofGraph target (collect entry snapshot limits)).resolve i known q =
        { answer := .ok (some (.inSpace (q.importerText ++ "::" ++ q.path) missingSpace))
          warnings :=
            [s!"Unresolved import '{q.path}' in {q.importerText} replaced with an empty module"] }) := by
  obtain ⟨level, hw⟩ := exists_settled_collect limits h
  rw [resolve_eq_resolveProject hq hs, Request.resolveProject, resolution?_ofGraph limits target h]
  cases hr : (collect entry snapshot limits).resolution? q.importerText q.path with
  | some m => exact .inl ⟨m, rfl, ((hw.resolution_iff _ _ _).1 hr).2.2, rfl⟩
  | none => exact .inr ⟨rfl, rfl⟩

/-- Whatever is served is from the snapshot, or a stand-in. -/
theorem loadsFrom_of_served {m space : String}
    (hm : (Request.ofGraph target (collect entry snapshot limits)).Served i known m space) :
    (Request.ofGraph target (collect entry snapshot limits)).LoadsFrom i snapshot m space := by
  cases hm with
  | entry hq ha =>
    have hentry : entrySpecifier ≠ mountSpecifier := by decide
    rw [Request.resolve, hq, if_neg hentry, if_pos rfl] at ha
    cases ha
    exact loadsFrom_file limits target h (entry_mem_collect limits h)
  | next _ _ hs hq ha =>
    rcases resolve_ofGraph limits target h i known hq hs with ⟨p, -, hp, he⟩ | ⟨-, he⟩
    · rw [he] at ha
      cases ha
      exact loadsFrom_file limits target h hp
    · rw [he] at ha
      cases ha
      exact loadsFrom_missing _

end Collected

/-- Whatever is asked about the graph of an entry that is stored: the entry is there, so each query is
answered; a project specifier of a project file leads to the file that the graph resolves it to, which
is loaded from the snapshot, or with one warning to a stand-in; and no project specifier leads to
anything else. -/
theorem serves_collect {snapshot : Snapshot} {entry path : String} (limits : Limits) (target : Target)
    (h : Imports.findMatch? entry snapshot.keys = some path) :
    let g := collect entry snapshot limits
    let r := Request.ofGraph target g
    (∀ (i : Installation) (known : Known) (queries : List Query) (conclusion : Conclusion),
      ∃ course, (run r i known queries conclusion).course = some course ∧
        course.answers = queries.map (r.answer i known) ∧
        course.warnings = queries.flatMap (r.complaints i known)) ∧
    (∀ spec : String, beginsAsProject spec.toList = Imports.isProject spec) ∧
    (∀ (i : Installation) (known : Known) (q : Question) (importer source : String),
      g.files.find? importer = some source → q.importer = some importer → q.space = projectSpace →
      Imports.isProject q.path = true →
      (∀ m, (r.resolve i known q).answer = .ok (some (.inSpace m projectSpace)) ↔
        q.path ∈ Imports.extract source ∧ g.resolution? importer q.path = some m) ∧
      (∀ m, g.resolution? importer q.path = some m →
        (r.resolve i known q).warnings = [] ∧ r.LoadsFrom i snapshot m projectSpace) ∧
      (g.resolution? importer q.path = none →
        (r.resolve i known q).answer =
          .ok (some (.inSpace (importer ++ "::" ++ q.path) missingSpace)) ∧
        (r.resolve i known q).warnings =
          [s!"Unresolved import '{q.path}' in {importer} replaced with an empty module"])) ∧
    ∀ (i : Installation) (known : Known) (m space : String),
      r.Served i known m space → r.LoadsFrom i snapshot m space := by
  intro g r
  have hentry : r.files.contains r.entry = true :=
    OrderedMap.contains_iff.2 (entry_mem_collect limits h)
  refine ⟨run_course hentry, beginsAsProject_eq, ?_,
    fun i known m space => loadsFrom_of_served limits target h⟩
  intro i known q importer source hfile hi hs hq
  obtain ⟨level, hw⟩ := exists_settled_collect limits h
  have himporter : q.importerText = importer := by simp [Question.importerText, hi]
  have hmissing : missingSpace ≠ projectSpace := by decide
  have hreply := resolve_ofGraph limits target h i known hq hs
  rw [himporter] at hreply
  rcases hreply with ⟨p, hp, hm, he⟩ | ⟨hnone, he⟩
  · -- What is resolved is among the imports of the graph.
    have hspec : q.path ∈ Imports.extract source := by
      obtain ⟨hin, -, -⟩ := (hw.resolution_iff importer q.path p).1 hp
      have hstored := hw.stored _ (OrderedMap.mem_keys_of_find? hfile)
      simpa [hstored] using (mem_importsOf.1 hin).2
    refine ⟨fun m => ?_, fun m hr => ?_, fun hn => ?_⟩
    · rw [he, hp]
      simp [Reply.of, hspec]
    · cases hp.symm.trans hr
      exact ⟨by rw [he]; rfl, loadsFrom_file limits target h hm⟩
    · cases hp.symm.trans hn
  · refine ⟨fun m => ?_, fun m hr => ?_, fun _ => ?_⟩
    · rw [he, hnone]
      simp [hmissing]
    · cases hnone.symm.trans hr
    · rw [he]
      exact ⟨rfl, rfl⟩

/-- What is asked about a specifier of a project file. -/
def askedBy (importer spec : String) : Question :=
  { path := spec, space := projectSpace, importer := some importer }

/-- Of the two imports of a file, the one that leads back is served from the snapshot, and the one that
leads too deep is replaced, although its file is stored. -/
theorem serves_collect_entangled :
    Imports.findMatch? "landing/index" entangled.keys = some "landing/index.tsx" ∧
      let r := Request.ofGraph .server (collect "landing/index" entangled { depth := 1 })
      ∀ (i : Installation) (known : Known),
        (r.resolve i known (askedBy "landing/a.tsx" "./index")).answer =
          .ok (some (.inSpace "landing/index.tsx" projectSpace)) ∧
        r.LoadsFrom i entangled "landing/index.tsx" projectSpace ∧
        (r.resolve i known (askedBy "landing/a.tsx" "./c")).answer =
          .ok (some (.inSpace "landing/a.tsx::./c" missingSpace)) := by
  have hentry : Imports.findMatch? "landing/index" entangled.keys = some "landing/index.tsx" := by
    decide +kernel
  obtain ⟨-, -, hserved, -⟩ := serves_collect { depth := 1 } .server hentry
  have hfile : (collect "landing/index" entangled { depth := 1 }).files.find? "landing/a.tsx" =
      some "import './index'\nimport './c'\n" := by decide +kernel
  have hback : (collect "landing/index" entangled { depth := 1 }).resolution? "landing/a.tsx"
      "./index" = some "landing/index.tsx" := by decide +kernel
  have hon : (collect "landing/index" entangled { depth := 1 }).resolution? "landing/a.tsx" "./c" =
      none := by decide +kernel
  refine ⟨hentry, fun i known => ?_⟩
  have hindex := hserved i known (askedBy _ "./index") _ _ hfile rfl rfl (by decide)
  have hc := hserved i known (askedBy _ "./c") _ _ hfile rfl rfl (by decide)
  exact ⟨(hindex.1 _).2 ⟨by decide +kernel, hback⟩, (hindex.2.1 _ hback).2, (hc.2.2 hon).1⟩

end Bundle

end VersionedSite
