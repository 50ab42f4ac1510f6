import VersionedSite.Proofs.Imports.Lookup
import VersionedSite.Proofs.Imports.Walk
import VersionedSite.Proofs.Service.Rendering
import VersionedSite.Proofs.Text.Lowercase

/-!
# The entry of a component site

Whether there is a component entry is asked by its exact path; its import graph is collected from the first
path, in the order of paths, that differs from it in case at most. Capitals come before small letters, so
the graph begins at the entry exactly if no other path that is seen differs from it in case only
(`graphAt_entry_iff`), and else at another file (`graphAt_of_capital`).

* `collect_beginsAt`: a graph begins at the file from which it is collected.
-/

namespace VersionedSite

/-! ## Where a graph begins -/

namespace ImportGraph

variable {snapshot : Snapshot} {limits : Limits} {path source : String}

/-- Whether a graph has a file as its entry and as the first of its files. -/
structure BeginsAt (path source : String) (g : ImportGraph) : Prop where
  entry_eq : g.entry = path
  head?_eq : g.files.entries.head? = some (path, source)

/-- A file that is added comes behind the first one. -/
theorem BeginsAt.insert {g : ImportGraph} (h : g.BeginsAt path source) {k v : String}
    (hk : k ∉ g.files.keys) : BeginsAt path source { g with files := g.files.insert k v } where
  entry_eq := h.entry_eq
  head?_eq := by
    obtain ⟨rest, hrest⟩ := List.head?_eq_some_iff.1 h.head?_eq
    have hne : path ≠ k := by
      rintro rfl
      exact hk (by simp [OrderedMap.keys, hrest])
    simp [OrderedMap.insert, hrest, OrderedMap.insertEntry, hne]

theorem Walk.beginsAt_follow {w : Walk} (h : w.graph.BeginsAt path source) (importer : String)
    (level : Nat) (spec : String) :
    (w.follow snapshot limits importer level spec).graph.BeginsAt path source := by
  obtain ⟨why, he, -⟩ | ⟨target, -, ⟨-, he⟩ | ⟨hn, -, added, -, he⟩⟩ :=
    w.follow_cases snapshot limits importer level spec
  · rw [he]
    exact ⟨h.entry_eq, h.head?_eq⟩
  · rw [he]
    exact ⟨h.entry_eq, h.head?_eq⟩
  · rw [he]
    have hadded := h.insert (v := added) hn
    exact ⟨hadded.entry_eq, hadded.head?_eq⟩

/-- A graph begins at the file from which it is collected. -/
theorem collect_beginsAt {entry : String} (hm : Imports.findMatch? entry snapshot.keys = some path)
    (hs : snapshot.find? path = some source) (limits : Limits) :
    (collect entry snapshot limits).BeginsAt path source := by
  unfold collect
  rw [hm, Option.bind_some, hs, Option.map_some]
  exact Walk.run_keeps (fun _ importer level spec h => Walk.beginsAt_follow h importer level spec) _ ⟨rfl, rfl⟩

end ImportGraph

/-! ## The component entry -/

namespace Service

open Imports

variable {settings : Settings} {store : Store} {project path : String} {number : Int} {f : VisibleFile}

theorem keys_snapshotAt (store : Store) (project : String) (number : Int) :
    (store.snapshotAt project number).keys = (store.filesAt project number).map VisibleFile.path := by
  rw [Store.snapshotAt, OrderedMap.keys_ofList] <;> rw [List.map_map]
  · rfl
  · exact Store.nodup_path_newestPerPath _

/-- A project shows one file at a path. -/
theorem eq_of_mem_filesAt {g : VisibleFile} (hf : f ∈ store.filesAt project number)
    (hg : g ∈ store.filesAt project number) (hp : f.path = g.path) : f = g :=
  List.inj_on_of_nodup_map (Store.nodup_path_newestPerPath _) hf hg hp

theorem find?_snapshotAt_of_mem (hf : f ∈ store.filesAt project number) :
    (store.snapshotAt project number).find? f.path = some f.content := by
  have hkey : f.path ∈ (store.snapshotAt project number).keys := by
    rw [keys_snapshotAt]
    exact List.mem_map_of_mem hf
  obtain ⟨content, hcontent⟩ := OrderedMap.exists_find?_of_mem hkey
  have hlisted : ∀ e ∈ (store.snapshotAt project number).entries,
      ∃ g ∈ store.filesAt project number, g.path = e.1 ∧ g.content = e.2 := by
    refine OrderedMap.forall_entries_ofList
      (P := fun k v => ∃ g ∈ store.filesAt project number, g.path = k ∧ g.content = v) fun e he => ?_
    obtain ⟨g, hg, rfl⟩ := List.mem_map.1 he
    exact ⟨g, hg, rfl, rfl⟩
  obtain ⟨g, hg, hpath, hsame⟩ := hlisted _ (OrderedMap.mem_keys_of_find? hcontent)
  rw [hcontent, eq_of_mem_filesAt hf hg hpath.symm]
  exact congrArg some hsame.symm

/-- Capitals come before small letters. -/
theorem le_componentEntry (h : foldedPath path = foldedPath Path.componentEntry) :
    path ≤ Path.componentEntry := by
  have hentry : foldedPath Path.componentEntry = Path.componentEntry.toList := by decide
  have hlower : Text.lower path.toList = Path.componentEntry.toList := h.trans hentry
  have hplain : ∀ d ∈ Path.componentEntry.toList, d.toNat < 128 ∧ d ≠ 'k' := by
    simp [Path.componentEntry]
  rw [← hlower] at hplain
  have hnot : ¬Text.lower path.toList < path.toList := Text.not_lower_lt hplain
  rw [hlower] at hnot
  exact String.not_lt.1 hnot

/-- Of the paths that differ from the entry in case at most, the least is the first that is seen. -/
theorem exists_first (hf : f ∈ store.filesAt project number) (hp : f.path = Path.componentEntry) :
    ∃ first ∈ store.filesAt project number,
      foldedPath first.path = foldedPath Path.componentEntry ∧
      findMatch? Path.componentEntry (store.snapshotAt project number).keys = some first.path ∧
      ∀ g ∈ store.filesAt project number, foldedPath g.path = foldedPath Path.componentEntry →
        first.path ≤ g.path := by
  have hentry : Path.componentEntry ∈ (store.filesAt project number).map VisibleFile.path :=
    hp ▸ List.mem_map_of_mem hf
  have hmatch := findMatch?_eq_find? hentry rfl
  have hfound : (((store.filesAt project number).map VisibleFile.path).find?
      fun p => foldedPath p = foldedPath Path.componentEntry).isSome := by
    rw [List.find?_isSome]
    exact ⟨_, hentry, by simp⟩
  obtain ⟨path, hpath⟩ := Option.isSome_iff_exists.1 hfound
  obtain ⟨first, hfirst, rfl⟩ := List.mem_map.1 (List.mem_of_find?_eq_some hpath)
  have hfirstFold : foldedPath first.path = foldedPath Path.componentEntry := by
    simpa using List.find?_some hpath
  refine ⟨first, hfirst, hfirstFold, by rw [keys_snapshotAt, hmatch, hpath], fun g hg hfold => ?_⟩
  -- What stands before the first match does not match, and paths go up.
  obtain ⟨-, before, after, hsplit, hbefore⟩ := List.find?_eq_some_iff_append.1 hpath
  have hsorted : (before ++ first.path :: after).Pairwise (· ≤ ·) := by
    rw [← hsplit, List.pairwise_map]
    exact (Store.pairwise_newestPerPath _).imp And.left
  have hmem : g.path ∈ before ++ first.path :: after := hsplit ▸ List.mem_map_of_mem hg
  rcases List.mem_append.1 hmem with hg | hg
  · have hnot := hbefore _ hg
    simp [hfold] at hnot
  · rcases List.mem_cons.1 hg with he | hg
    · exact he ▸ String.le_refl _
    · exact (List.pairwise_cons.1 (List.pairwise_append.1 hsorted).2.1).1 _ hg

/-- The graph of an entry with content begins at the least path that differs from the entry in case at
most. -/
theorem graphAt_beginsAt (settings : Settings) (hf : f ∈ store.filesAt project number)
    (hp : f.path = Path.componentEntry) (hc : f.content ≠ "") :
    ∃ first ∈ store.filesAt project number,
      foldedPath first.path = foldedPath Path.componentEntry ∧
      (∀ g ∈ store.filesAt project number, foldedPath g.path = foldedPath Path.componentEntry →
        first.path ≤ g.path) ∧
      ∃ graph, graphAt settings store project number = some graph ∧
        graph.BeginsAt first.path first.content := by
  obtain ⟨first, hfirst, hfold, hmatch, hleast⟩ := exists_first hf hp
  refine ⟨first, hfirst, hfold, hleast, componentGraph settings store project number, ?_, ?_⟩
  · have hfound : (store.snapshotAt project number).find? Path.componentEntry = some f.content :=
      hp ▸ find?_snapshotAt_of_mem hf
    show (if (((store.snapshotAt project number).find? Path.componentEntry).filter (· ≠ "")).isSome
      then _ else _) = _
    rw [hfound, Option.filter_some_pos (by simpa using hc)]
    rfl
  · exact ImportGraph.collect_beginsAt hmatch (find?_snapshotAt_of_mem hfirst) _

/-- Where the component entry is seen with any content, there is a graph. It has the entry, with the content
that is seen, as its entry and its first file exactly if no other path that is seen differs from it in case
only. -/
theorem graphAt_entry_iff (settings : Settings) (hf : f ∈ store.filesAt project number)
    (hp : f.path = Path.componentEntry) (hc : f.content ≠ "") :
    ∃ graph, graphAt settings store project number = some graph ∧
      ((graph.entry = Path.componentEntry ∧
          graph.files.entries.head? = some (Path.componentEntry, f.content)) ↔
        ∀ g ∈ store.filesAt project number, foldedPath g.path = foldedPath Path.componentEntry →
          g.path = Path.componentEntry) := by
  obtain ⟨first, hfirst, hfirstFold, hleast, graph, hgraph, hbegins⟩ :=
    graphAt_beginsAt settings hf hp hc
  refine ⟨graph, hgraph, fun hentry g hg hfold => ?_, fun hunique => ?_⟩
  · have hpath : first.path = Path.componentEntry := hbegins.entry_eq.symm.trans hentry.1
    exact String.le_antisymm (le_componentEntry hfold) (hpath ▸ hleast g hg hfold)
  · have hpath : first.path = Path.componentEntry := hunique first hfirst hfirstFold
    obtain rfl : f = first := eq_of_mem_filesAt hf hfirst (hp.trans hpath.symm)
    exact ⟨hbegins.entry_eq.trans hp, hp ▸ hbegins.head?_eq⟩

/-! ## An entry and a path that starts with a capital -/

/-- A store with the component entry and one other file, both of one revision. -/
def entryBeside (other : String) : Store where
  revisions := [{ id := 1, project := "shop", number := 1, user := "ann", createdAt := 0 }]
  files :=
    [{ id := 1, project := "shop", path := other, role := "other", createdAt := 0, updatedAt := 0 },
     { id := 2, project := "shop", path := "landing/index.tsx", role := "layout", createdAt := 0
       updatedAt := 0 }]
  versions :=
    [{ id := 1, file := 1, revision := 1, content := "other", createdAt := 0 },
     { id := 2, file := 2, revision := 1, content := "entry", createdAt := 0 }]

/-- The component entry in a listing. -/
def entryFile : VisibleFile :=
  { path := "landing/index.tsx", role := "layout", content := "entry", number := 1 }

theorem filesAt_entryBeside : ∀ other ∈ ["Landing/index.jsx", "Landing/index.tsx"],
    (entryBeside other).filesAt "shop" 1 =
      [{ path := other, role := "other", content := "other", number := 1 }, entryFile] := by
  intro other hother
  rw [Store.filesAt, Store.newestPerPath_eq, Store.listing, List.mergeSort_of_pairwise]
  · revert other
    decide +kernel
  · revert other
    decide +kernel

/-- The entry in another form is another path in lower case, too. -/
theorem graphAt_entry_iff_extension :
    ∃ graph, graphAt {} (entryBeside "Landing/index.jsx") "shop" 1 = some graph ∧
      graph.entry = "landing/index.tsx" ∧
      graph.files.entries.head? = some ("landing/index.tsx", "entry") := by
  have hfiles := filesAt_entryBeside "Landing/index.jsx" (by decide)
  have hentry : entryFile ∈ (entryBeside "Landing/index.jsx").filesAt "shop" 1 := by
    rw [hfiles]
    decide
  obtain ⟨graph, hgraph, hiff⟩ := graphAt_entry_iff {} hentry rfl (by decide)
  refine ⟨graph, hgraph, hiff.2 ?_⟩
  rw [hfiles]
  decide +kernel

/-- Where the path of the entry is there with a capital, too, the graph begins there, and the entry is not
even among its files. -/
theorem graphAt_of_capital :
    entryFile ∈ (entryBeside "Landing/index.tsx").filesAt "shop" 1 ∧
      ∃ graph, graphAt {} (entryBeside "Landing/index.tsx") "shop" 1 = some graph ∧
        graph.entry = "Landing/index.tsx" ∧
        graph.files.entries = [("Landing/index.tsx", "other")] := by
  have hfiles := filesAt_entryBeside "Landing/index.tsx" (by decide)
  have hgraph : (graphAt {} (entryBeside "Landing/index.tsx") "shop" 1).map
      (fun graph => (graph.entry, graph.files.entries)) =
        some ("Landing/index.tsx", [("Landing/index.tsx", "other")]) := by
    unfold graphAt
    rw [hfiles]
    decide +kernel
  obtain ⟨graph, hgraph, he⟩ := Option.map_eq_some_iff.1 hgraph
  refine ⟨?_, graph, hgraph, (Prod.mk.inj he).1, (Prod.mk.inj he).2⟩
  rw [hfiles]
  decide

end Service

end VersionedSite
