import Mathlib.Data.Nat.Find
import VersionedSite.Proofs.Imports.Walk

/-!
# How far a walk gets

A file is as far from the entry as its shortest chain of imports is long (`AtDistance`). A walk comes to the
files by their distances: all files that the depth limit admits are reached unless a warning tells of the
file limit, and a lower file limit cuts off the last files (`collect_breadth`).

* `Walk.Graded`: what a walk knows about distances, kept by each step.
* `Walk.Lags`: a walk beside one that may reach more files.
-/

namespace VersionedSite.ImportGraph

variable {snapshot : Snapshot} {limits : Limits} {root importer spec path : String} {n m : Nat}

/-! ## Distances -/

/-- Whether a stored file has an import that names another one. -/
def LeadsTo (snapshot : Snapshot) (importer path : String) : Prop :=
  ∃ spec, (importer, spec) ∈ importsOf snapshot [importer] ∧ target? snapshot importer spec = some path

/-- A chain of so many imports from a root to a path. -/
inductive Chain (snapshot : Snapshot) (root : String) : Nat → String → Prop where
  | root : Chain snapshot root 0 root
  | next {n : Nat} {importer path : String} (h : Chain snapshot root n importer)
      (hpath : LeadsTo snapshot importer path) : Chain snapshot root (n + 1) path

/-- Whether the shortest chain of imports from a root to a path has so many of them. -/
structure AtDistance (snapshot : Snapshot) (root : String) (n : Nat) (path : String) : Prop where
  chain : Chain snapshot root n path
  le : ∀ m, Chain snapshot root m path → n ≤ m

theorem AtDistance.unique (h : AtDistance snapshot root n path) (h' : AtDistance snapshot root m path) :
    n = m :=
  Nat.le_antisymm (h.le m h'.chain) (h'.le n h.chain)

theorem Chain.exists_atDistance (h : Chain snapshot root n path) :
    ∃ m ≤ n, AtDistance snapshot root m path := by
  classical
  have hex : ∃ m, Chain snapshot root m path := ⟨n, h⟩
  exact ⟨Nat.find hex, Nat.find_min' hex h, Nat.find_spec hex, fun m hm => Nat.find_min' hex hm⟩

theorem atDistance_root : AtDistance snapshot root 0 root := ⟨.root, fun _ _ => Nat.zero_le _⟩

/-- Whether one path is no farther from a root than another. -/
def NoFarther (snapshot : Snapshot) (root path path' : String) : Prop :=
  ∀ n m, AtDistance snapshot root n path → AtDistance snapshot root m path' → n ≤ m

/-! ## Distances on a walk -/

namespace Walk

/-- What is followed past the file limit is warned of. -/
theorem warnings_follow_of_files {level : Nat} {w : Walk} (ht : target? snapshot importer spec = some path)
    (hm : path ∉ w.graph.files.keys) (hdepth : ¬limits.depth < level + 1)
    (hfiles : limits.files ≤ w.graph.files.size) :
    (w.follow snapshot limits importer level spec).graph.warnings =
      w.graph.warnings ++ [(Omission.tooMany limits.files).message spec importer] := by
  obtain ⟨source, hs⟩ := OrderedMap.exists_find?_of_mem (target?_mem ht)
  have hnew : w.graph.files.contains path = false := by
    simpa using mt OrderedMap.contains_iff.1 hm
  simp only [follow, lookup?_eq, ht, hs, Option.bind_some, Option.map_some, hnew]
  simp [hdepth, hfiles, omitting]

/-- What a walk that has visited some paths and settled some imports knows about distances. -/
structure Graded (snapshot : Snapshot) (limits : Limits) (root : String) (visited : List String)
    (settled : List (String × String)) (level : Nat) (w : Walk) : Prop where
  queued : ∀ e ∈ w.queue, AtDistance snapshot root e.2 e.1
  visited_le : ∀ path ∈ visited, ∃ n ≤ level, AtDistance snapshot root n path
  ordered : w.graph.files.keys.Pairwise (NoFarther snapshot root)
  reached : ∀ path ∈ w.graph.files.keys, ∃ n : Nat, AtDistance snapshot root n path ∧
    n ≤ max 0 limits.depth
  /-- The imports of all nearer files are settled. -/
  nearer : ∀ path ∈ visited, ∀ n < level, AtDistance snapshot root n path →
    ∀ i ∈ importsOf snapshot [path], i ∈ settled
  /-- What was refused is too deep or warned of. -/
  refused : ∀ importer spec path n, (importer, spec) ∈ settled →
    target? snapshot importer spec = some path → path ∉ w.graph.files.keys →
    AtDistance snapshot root n importer → limits.depth < n + 1 ∨
      (Omission.tooMany limits.files).message spec importer ∈ w.graph.warnings

namespace Graded

variable {visited : List String} {settled : List (String × String)} {level : Nat} {w : Walk}

/-- While there is room for more files, all files up to the level are there. -/
theorem mem_of_chain (h : w.Graded snapshot limits root visited settled level)
    (hs : w.Settled snapshot limits root visited settled level) (hroom : ¬Full limits level w.graph)
    (hchain : Chain snapshot root n path) (hn : n ≤ level) : path ∈ w.graph.files.keys := by
  induction hchain with
  | root => exact hs.root_mem
  | @next n importer path hchain hpath ih =>
    obtain ⟨spec, himport, ht⟩ := hpath
    obtain ⟨k, hk, hdistance⟩ := hchain.exists_atDistance
    have hvisited : importer ∈ visited := by
      have hmem := ih (Nat.le_of_succ_le hn)
      rw [hs.keys_eq] at hmem
      refine (List.mem_append.1 hmem).resolve_right fun hqueue => ?_
      obtain ⟨e, he, rfl⟩ := List.mem_map.1 hqueue
      have hsame := (h.queued e he).unique hdistance
      have hle := (hs.levels e he).1
      omega
    by_contra hout
    have hnearer := h.nearer importer hvisited k (by omega) hdistance _ himport
    exact hroom (hs.full importer spec path hnearer ht hout)

/-- A refused specifier changes nothing but the warnings. -/
theorem refuse (h : w.Graded snapshot limits root visited settled level)
    (hdistance : AtDistance snapshot root level importer)
    (ht : ∀ path, target? snapshot importer spec = some path →
      path ∉ w.graph.files.keys ∧ Full limits level w.graph) (why : Omission)
    (he : w.follow snapshot limits importer level spec =
      { w with graph := w.graph.omitting spec importer why }) :
    Graded snapshot limits root visited (settled ++ [(importer, spec)]) level
      { w with graph := w.graph.omitting spec importer why } where
  queued := h.queued
  visited_le := h.visited_le
  ordered := h.ordered
  reached := h.reached
  nearer path hp n hn hd i hi := List.mem_append_left _ (h.nearer path hp n hn hd i hi)
  refused i s path n hi hp hm hd := by
    rcases List.mem_append.1 hi with hi | hi
    · exact (h.refused i s path n hi hp hm hd).imp_right fun hw => List.mem_append_left _ hw
    · obtain ⟨rfl, rfl⟩ := Prod.mk.inj (List.mem_singleton.1 hi)
      obtain rfl := hd.unique hdistance
      refine or_iff_not_imp_left.2 fun hdepth => ?_
      have hwarned := warnings_follow_of_files (w := w) hp hm hdepth ((ht path hp).2.resolve_left hdepth)
      rw [he] at hwarned
      rw [hwarned]
      exact List.mem_append_right _ (List.mem_singleton_self _)

/-- A specifier that leads to a file of the graph changes nothing but the resolutions. -/
theorem resolve (h : w.Graded snapshot limits root visited settled level)
    (ht : target? snapshot importer spec = some path) (hm : path ∈ w.graph.files.keys) :
    Graded snapshot limits root visited (settled ++ [(importer, spec)]) level
      { w with graph := w.graph.resolving importer spec path } where
  queued := h.queued
  visited_le := h.visited_le
  ordered := h.ordered
  reached := h.reached
  nearer path hp n hn hd i hi := List.mem_append_left _ (h.nearer path hp n hn hd i hi)
  refused i s p n hi hp hmp hd := by
    rcases List.mem_append.1 hi with hi | hi
    · exact h.refused i s p n hi hp hmp hd
    · obtain ⟨rfl, rfl⟩ := Prod.mk.inj (List.mem_singleton.1 hi)
      cases ht.symm.trans hp
      exact absurd hm hmp

/-- One more file is as far as its importer and the import. -/
theorem add (h : w.Graded snapshot limits root visited settled level)
    (hs : w.Settled snapshot limits root visited settled level)
    (hdistance : AtDistance snapshot root level importer) (hroom : ¬Full limits level w.graph)
    (hpath : LeadsTo snapshot importer path) (hm : path ∉ w.graph.files.keys) (source : String) :
    Graded snapshot limits root visited settled level
      { graph := { w.graph with files := w.graph.files.insert path source }
        queue := w.queue ++ [(path, level + 1)] } := by
  have hkeys : (w.graph.files.insert path source).keys = w.graph.files.keys ++ [path] :=
    OrderedMap.keys_insert_of_not_mem _ hm _
  have hnew : AtDistance snapshot root (level + 1) path :=
    ⟨.next hdistance.chain hpath, fun m hchain =>
      Nat.lt_of_not_le fun hle => hm (h.mem_of_chain hs hroom hchain hle)⟩
  have hbefore : ∀ p ∈ w.graph.files.keys, ∃ n ≤ level + 1, AtDistance snapshot root n p := by
    intro p hp
    rw [hs.keys_eq] at hp
    rcases List.mem_append.1 hp with hp | hp
    · obtain ⟨n, hn, hd⟩ := h.visited_le p hp
      exact ⟨n, Nat.le_succ_of_le hn, hd⟩
    · obtain ⟨e, he, rfl⟩ := List.mem_map.1 hp
      exact ⟨e.2, (hs.levels e he).2, h.queued e he⟩
  refine ⟨?_, h.visited_le, ?_, ?_, h.nearer, ?_⟩
  · intro e he
    rcases List.mem_append.1 he with he | he
    · exact h.queued e he
    · rw [List.mem_singleton.1 he]
      exact hnew
  · rw [hkeys, List.pairwise_append]
    refine ⟨h.ordered, List.pairwise_singleton _ _, fun p hp q hq n m hn hq' => ?_⟩
    obtain rfl := List.mem_singleton.1 hq
    obtain ⟨k, hk, hd⟩ := hbefore p hp
    rw [hn.unique hd, hq'.unique hnew]
    exact hk
  · intro p hp
    rw [hkeys] at hp
    rcases List.mem_append.1 hp with hp | hp
    · exact h.reached p hp
    · rw [List.mem_singleton.1 hp]
      have hdepth := (not_or.1 hroom).1
      exact ⟨level + 1, hnew, by omega⟩
  · intro i s p n hi hp hmp hd
    exact h.refused i s p n hi hp (fun hin => hmp (hkeys ▸ List.mem_append_left _ hin)) hd

/-- Following one specifier of a file at the level. -/
theorem follow (h : w.Graded snapshot limits root visited settled level)
    (hs : w.Settled snapshot limits root visited settled level)
    (hdistance : AtDistance snapshot root level importer)
    (himport : (importer, spec) ∈ importsOf snapshot [importer]) :
    (w.follow snapshot limits importer level spec).Graded snapshot limits root visited
      (settled ++ [(importer, spec)]) level := by
  obtain ⟨why, he, ht⟩ | ⟨path, ht, ⟨hm, he⟩ | ⟨hm, hroom, source, -, he⟩⟩ :=
    follow_cases snapshot limits importer level w spec
  · rw [he]
    exact h.refuse hdistance ht why he
  · rw [he]
    exact h.resolve ht hm
  · rw [he]
    refine (h.add hs hdistance hroom ⟨spec, himport, ht⟩ hm source).resolve ht ?_
    rw [OrderedMap.keys_insert_of_not_mem _ hm]
    exact List.mem_append_right _ (List.mem_singleton_self _)

/-- The next file is about to be visited. -/
theorem next (h : w.Graded snapshot limits root visited (importsOf snapshot visited) level)
    (hs : w.Settled snapshot limits root visited (importsOf snapshot visited) level) {depth : Nat}
    {rest : List (String × Nat)} (hq : w.queue = (importer, depth) :: rest) :
    Graded snapshot limits root (visited ++ [importer]) (importsOf snapshot visited) depth
      { w with queue := rest } := by
  have hfirst : (importer, depth) ∈ w.queue := hq ▸ List.mem_cons_self
  have hdistance := h.queued _ hfirst
  refine { h with
    queued := fun e he => h.queued e (hq ▸ List.mem_cons_of_mem _ he)
    visited_le := fun path hp => ?_
    nearer := fun path hp n hn hd i hi => ?_ }
  · rcases List.mem_append.1 hp with hp | hp
    · obtain ⟨n, hn, hd⟩ := h.visited_le path hp
      exact ⟨n, Nat.le_trans hn (hs.levels _ hfirst).1, hd⟩
    · obtain rfl := List.mem_singleton.1 hp
      exact ⟨depth, Nat.le_refl _, hdistance⟩
  · rcases List.mem_append.1 hp with hp | hp
    · obtain ⟨hi', hspec⟩ := mem_importsOf.1 hi
      exact mem_importsOf.2 ⟨List.mem_singleton.1 hi' ▸ hp, hspec⟩
    · obtain rfl := List.mem_singleton.1 hp
      exact absurd (hd.unique hdistance) (Nat.ne_of_lt hn)

/-- A visit to the next file. -/
theorem visit (h : w.Graded snapshot limits root visited (importsOf snapshot visited) level)
    (hs : w.Settled snapshot limits root visited (importsOf snapshot visited) level) {depth : Nat}
    {rest : List (String × Nat)} (hq : w.queue = (importer, depth) :: rest) :
    (Walk.visit snapshot limits { w with queue := rest } importer depth).Graded snapshot limits root
      (visited ++ [importer]) (importsOf snapshot (visited ++ [importer])) depth := by
  have hdistance := h.queued (importer, depth) (hq ▸ List.mem_cons_self)
  refine (hs.visit_keeping
    (P := fun settled w => Graded snapshot limits root (visited ++ [importer]) settled depth w)
    (fun spec hspec hs h => h.follow hs hdistance ?_) hq (h.next hs hq)).2
  exact mem_importsOf.2 ⟨List.mem_singleton_self _, hspec⟩

/-- The walk that a graph is collected by, before its first visit. -/
theorem start (source : String) (limits : Limits) :
    Graded snapshot limits root [] [] 0
      { graph := { entry := root, files := OrderedMap.empty.insert root source }
        queue := [(root, 0)] } where
  queued e he := by
    rw [List.mem_singleton.1 he]
    exact atDistance_root
  visited_le := by simp
  ordered := List.pairwise_singleton _ _
  reached path hp := by
    rw [List.mem_singleton.1 hp]
    exact ⟨0, atDistance_root, Int.le_max_left _ _⟩
  nearer := by simp
  refused := by simp

/-- A whole walk without a warning of the file limit leaves out what is too deep only. -/
theorem mem_of_no_warning (h : w.Graded snapshot limits root w.graph.files.keys
      (importsOf snapshot w.graph.files.keys) level)
    (hroot : root ∈ w.graph.files.keys)
    (hwarnings : ∀ importer spec,
      (Omission.tooMany limits.files).message spec importer ∉ w.graph.warnings)
    (hchain : Chain snapshot root n path) (hn : (n : Int) ≤ max 0 limits.depth) :
    path ∈ w.graph.files.keys := by
  induction hchain with
  | root => exact hroot
  | @next n importer path hchain hpath ih =>
    obtain ⟨spec, himport, ht⟩ := hpath
    obtain ⟨k, hk, hdistance⟩ := hchain.exists_atDistance
    by_contra hout
    have hmem := ih (by omega)
    have hsettled := mem_importsOf.2 ⟨hmem, (mem_importsOf.1 himport).2⟩
    rcases h.refused importer spec path k hsettled ht hout hdistance with hdeep | hwarned
    · omega
    · exact hwarnings importer spec hwarned

end Graded

/-! ## A lower file limit -/

/-- Following a specifier adds a file and queues it, or leaves files and queue as they are. -/
theorem files_follow (snapshot : Snapshot) (limits : Limits) (importer : String) (level : Nat) (w : Walk)
    (spec : String) :
    (∃ path source, target? snapshot importer spec = some path ∧ path ∉ w.graph.files.keys ∧
      ¬Full limits level w.graph ∧ snapshot.find? path = some source ∧
      (w.follow snapshot limits importer level spec).graph.files = w.graph.files.insert path source ∧
      (w.follow snapshot limits importer level spec).queue = w.queue ++ [(path, level + 1)]) ∨
    (∀ path, target? snapshot importer spec = some path →
      path ∈ w.graph.files.keys ∨ Full limits level w.graph) ∧
    (w.follow snapshot limits importer level spec).graph.files = w.graph.files ∧
    (w.follow snapshot limits importer level spec).queue = w.queue := by
  obtain ⟨why, he, ht⟩ | ⟨path, ht, ⟨hm, he⟩ | ⟨hm, hroom, source, hs, he⟩⟩ :=
    follow_cases snapshot limits importer level w spec
  · exact .inr ⟨fun path hp => .inr (ht path hp).2, by rw [he]; exact ⟨rfl, rfl⟩⟩
  · refine .inr ⟨fun path' hp => .inl ?_, by rw [he]; exact ⟨rfl, rfl⟩⟩
    cases ht.symm.trans hp
    exact hm
  · exact .inl ⟨path, source, ht, hm, hroom, hs, by rw [he]; exact ⟨rfl, rfl⟩⟩

/-- Files are added at the end. -/
theorem entries_prefix_follow (snapshot : Snapshot) (limits : Limits) (importer : String) (level : Nat)
    (w : Walk) (spec : String) : w.graph.files.entries <+:
      (w.follow snapshot limits importer level spec).graph.files.entries := by
  rcases w.files_follow snapshot limits importer level spec with
    ⟨path, source, -, hm, -, -, hfiles, -⟩ | ⟨-, hfiles, -⟩
  · rw [hfiles, OrderedMap.entries_insert_of_not_mem _ hm]
    exact List.prefix_append _ _
  · exact hfiles ▸ List.prefix_rfl

/-- Once as many files as the limit allows are there, they stay as they are. -/
theorem files_follow_of_le (importer : String) (level : Nat) {w : Walk} (spec : String)
    (h : limits.files ≤ w.graph.files.size) :
    (w.follow snapshot limits importer level spec).graph.files = w.graph.files := by
  rcases w.files_follow snapshot limits importer level spec with
    ⟨path, source, -, -, hroom, -⟩ | ⟨-, hfiles, -⟩
  · exact absurd (.inr h) hroom
  · exact hfiles

/-- Whether the files of a walk are the first ones of another, which it goes along with until it has as
many as its limit allows. -/
structure Lags (limit : Nat) (w w' : Walk) : Prop where
  entries_eq : w.graph.files.entries = w'.graph.files.entries.take limit
  queue_eq : w'.graph.files.size ≤ limit → w.queue = w'.queue

namespace Lags

variable {limits' : Limits} {limit : Nat} {w w' : Walk}

theorem files_eq (h : Lags limit w w') (hsize : w'.graph.files.size ≤ limit) :
    w.graph.files = w'.graph.files := by
  have he := h.entries_eq
  rw [List.take_of_length_le hsize] at he
  exact congrArg OrderedMap.mk he

theorem size_eq (h : Lags limit w w') : w.graph.files.size = min limit w'.graph.files.size := by
  rw [OrderedMap.size, h.entries_eq, List.length_take]
  rfl

/-- While the first walk has room for more files, it has those of the other. -/
theorem files_eq_of_lt (h : Lags limit w w') (hsize : w.graph.files.size < limit) :
    w'.graph.files.size < limit ∧ w.graph.files = w'.graph.files := by
  have hmin := h.size_eq
  have hlt : w'.graph.files.size < limit := by omega
  exact ⟨hlt, h.files_eq (Nat.le_of_lt hlt)⟩

/-- Both walks follow the same specifier. -/
theorem follow (h : Lags limit w w') (hdepth : limits.depth = limits'.depth)
    (hlimit : limits.files = limit) (hfiles : limits.files ≤ limits'.files) (importer : String)
    (level : Nat) (spec : String) :
    Lags limit (w.follow snapshot limits importer level spec)
      (w'.follow snapshot limits' importer level spec) := by
  rcases w.files_follow snapshot limits importer level spec with
    ⟨path, source, ht, hm, hroom, hs, hadded, hqueue⟩ | ⟨hout, hsame, hqueue⟩ <;>
  rcases w'.files_follow snapshot limits' importer level spec with
    ⟨path', source', ht', hm', hroom', hs', hadded', hqueue'⟩ | ⟨hout', hsame', hqueue'⟩
  · -- Both add the file.
    obtain ⟨hlt, he⟩ := h.files_eq_of_lt (by have hsize := not_or.1 hroom; omega)
    cases ht.symm.trans ht'
    cases hs.symm.trans hs'
    have hentries := OrderedMap.entries_insert_of_not_mem _ hm' source
    refine ⟨?_, fun _ => ?_⟩
    · rw [hadded, hadded', he, List.take_of_length_le]
      rw [hentries, List.length_append, List.length_singleton]
      exact hlt
    · rw [hqueue, hqueue', h.queue_eq (Nat.le_of_lt hlt)]
  · -- What the first has room for, the other has room for.
    obtain ⟨hlt, he⟩ := h.files_eq_of_lt (by have hsize := not_or.1 hroom; omega)
    have hsize := not_or.1 hroom
    rcases hout' path ht with hin | hdeep | hmany
    · exact absurd (he ▸ hin) hm
    · exact absurd (hdepth ▸ hdeep) hsize.1
    · omega
  · -- The other adds a file behind those of the first.
    have hge : limit ≤ w'.graph.files.size := by
      by_contra hlt
      have he := h.files_eq (Nat.le_of_not_le hlt)
      have hsize' := not_or.1 hroom'
      rcases hout path' ht' with hin | hdeep | hmany
      · exact hm' (he ▸ hin)
      · exact hsize'.1 (hdepth ▸ hdeep)
      · rw [he] at hmany
        omega
    have hentries := OrderedMap.entries_insert_of_not_mem _ hm' source'
    refine ⟨?_, fun hle => ?_⟩
    · rw [hsame, hadded', hentries, List.take_append_of_le_length hge]
      exact h.entries_eq
    · rw [hadded', OrderedMap.size, hentries, List.length_append, List.length_singleton] at hle
      exact absurd (Nat.lt_of_lt_of_le (Nat.lt_succ_self _) hle) (Nat.not_lt.2 hge)
  · refine ⟨?_, fun hle => ?_⟩
    · rw [hsame, hsame']
      exact h.entries_eq
    · rw [hqueue, hqueue']
      exact h.queue_eq (hsame' ▸ hle)

/-- Both walks visit the same file. -/
theorem visit (h : Lags limit w w') (hsize : w'.graph.files.size ≤ limit)
    (hdepth : limits.depth = limits'.depth) (hlimit : limits.files = limit)
    (hfiles : limits.files ≤ limits'.files) (importer : String) (level : Nat) :
    Lags limit (w.visit snapshot limits importer level) (w'.visit snapshot limits' importer level) := by
  unfold Walk.visit
  rw [h.files_eq hsize]
  generalize Imports.extract ((w'.graph.files.find? importer).getD "") = specs
  clear hsize
  induction specs generalizing w w' with
  | nil => exact h
  | cons spec specs ih => exact ih (h.follow hdepth hlimit hfiles importer level spec)

/-- Behind its limit the first walk adds nothing, however far the other goes. -/
theorem run_of_le (fuel : Nat) (h : Lags limit w w') (hlimit : limits.files = limit)
    (hsize : limit ≤ w'.graph.files.size) :
    (w.run snapshot limits fuel).files.entries =
      (w'.run snapshot limits' fuel).files.entries.take limit := by
  have hfull : limits.files ≤ w.graph.files.size := by
    have hmin := h.size_eq
    omega
  have hstays : (w.run snapshot limits fuel).files = w.graph.files := by
    refine run_keeps (P := fun g => g.files = w.graph.files) (fun v importer level spec hv => ?_) fuel rfl
    exact (files_follow_of_le importer level spec (hv ▸ hfull)).trans hv
  have hgrows : w'.graph.files.entries <+: (w'.run snapshot limits' fuel).files.entries := by
    refine run_keeps (P := fun g => w'.graph.files.entries <+: g.files.entries)
      (fun v importer level spec hv => ?_) fuel List.prefix_rfl
    exact hv.trans (entries_prefix_follow snapshot limits' importer level v spec)
  obtain ⟨added, hadded⟩ := hgrows
  rw [hstays, h.entries_eq, ← hadded, List.take_append_of_le_length hsize]

/-- Both walks go on to their ends. -/
theorem run (fuel : Nat) (h : Lags limit w w') (hdepth : limits.depth = limits'.depth)
    (hlimit : limits.files = limit) (hfiles : limits.files ≤ limits'.files) :
    (w.run snapshot limits fuel).files.entries =
      (w'.run snapshot limits' fuel).files.entries.take limit := by
  induction fuel generalizing w w' with
  | zero => exact h.entries_eq
  | succ fuel ih =>
    rcases Nat.le_total limit w'.graph.files.size with hsize | hsize
    · exact h.run_of_le (fuel + 1) hlimit hsize
    · obtain ⟨graph, queue⟩ := w
      obtain ⟨graph', queue'⟩ := w'
      cases (h.queue_eq hsize : queue = queue')
      cases queue with
      | nil => exact h.entries_eq
      | cons e rest =>
        have hrest : Lags limit ⟨graph, rest⟩ ⟨graph', rest⟩ := ⟨h.entries_eq, fun _ => rfl⟩
        exact ih (hrest.visit hsize hdepth hlimit hfiles e.1 e.2)

end Lags

end Walk

/-! ## Graphs -/

/-- The files of the graph of an entry that is stored come by their distances from it, which are the lengths
of the shortest chains of imports that the snapshot has. If no warning tells of the file limit, the files
are all those that the depth limit admits. With a lower file limit they are the first ones of those with a
higher one. -/
theorem collect_breadth {entry : String} (limits : Limits)
    (h : Imports.findMatch? entry snapshot.keys = some root) :
    let g := collect entry snapshot limits
    ((∀ importer spec, (Omission.tooMany limits.files).message spec importer ∉ g.warnings) →
      ∀ path, path ∈ g.files.keys ↔
        path ∈ snapshot.keys ∧ ∃ n : Nat, AtDistance snapshot root n path ∧ n ≤ max 0 limits.depth) ∧
    (∀ path ∈ g.files.keys, ∃ n, AtDistance snapshot root n path) ∧
    g.files.keys.Pairwise (NoFarther snapshot root) ∧
    ∀ few many : Int, 1 ≤ few → few ≤ many →
      (collect entry snapshot { limits with files := few }).files.entries =
        (collect entry snapshot { limits with files := many }).files.entries.take few.toNat := by
  intro g
  obtain ⟨source, hs⟩ := OrderedMap.exists_find?_of_mem (Imports.findMatch?_mem h)
  obtain ⟨paths, level, hsettled, hgraded⟩ := (Walk.Settled.start limits hs).run_keeping
    (P := fun visited level w => w.Graded snapshot limits root visited (importsOf snapshot visited) level)
    (fun hs hq h => h.visit hs hq) snapshot.size (Walk.Graded.start source limits) (by simp)
  rw [← collect_eq_run limits h hs] at hsettled hgraded
  have hkeys : g.files.keys = paths := by simpa using hsettled.keys_eq
  subst hkeys
  refine ⟨fun hwarnings path => ⟨fun hp => ⟨hsettled.subset hp, hgraded.reached path hp⟩, ?_⟩, ?_,
    hgraded.ordered, ?_⟩
  · rintro ⟨-, n, hd, hn⟩
    exact hgraded.mem_of_no_warning hsettled.root_mem hwarnings hd.chain hn
  · intro path hp
    obtain ⟨n, hd, -⟩ := hgraded.reached path hp
    exact ⟨n, hd⟩
  · intro few many hpos hle
    rw [collect_eq_run _ h hs, collect_eq_run _ h hs]
    have hnonneg : 0 ≤ few := by omega
    refine Walk.Lags.run snapshot.size ⟨?_, fun _ => rfl⟩ rfl (Int.toNat_of_nonneg hnonneg).symm hle
    refine (List.take_of_length_le ?_).symm
    show 1 ≤ few.toNat
    omega

/-- A site in which a file has a longer and a shorter way to it. -/
def shortcut : Snapshot := .ofList
  [("landing/index.tsx", "import './a'\nimport './b'\n"), ("landing/a.tsx", "import './c'\n"),
   ("landing/b.tsx", "import './d'\n"), ("landing/c.tsx", "import './d'\n"), ("landing/d.tsx", "")]

/-- Two levels deep, the shorter way leads to the last file, which a limit of four files leaves out. -/
theorem collect_breadth_shortcut :
    let g := collect "landing/index" shortcut { depth := 2 }
    Imports.findMatch? "landing/index" shortcut.keys = some "landing/index.tsx" ∧
      (∀ importer spec, (Omission.tooMany 50).message spec importer ∉ g.warnings) ∧
      (∃ n : Nat, AtDistance shortcut "landing/index.tsx" n "landing/d.tsx" ∧ n ≤ (2 : Int)) ∧
      g.files.keys.Pairwise (NoFarther shortcut "landing/index.tsx") ∧
      ((1 : Int) ≤ 4 ∧ (4 : Int) ≤ 50) ∧
      (collect "landing/index" shortcut { depth := 2, files := 4 }).files.entries =
        g.files.entries.take 4 := by
  intro g
  have hentry : Imports.findMatch? "landing/index" shortcut.keys = some "landing/index.tsx" := by
    decide +kernel
  obtain ⟨hfiles, -, hordered, hlimits⟩ := collect_breadth { depth := 2 } hentry
  have hnone : g.warnings = [] := by decide +kernel
  have hwarnings : ∀ importer spec, (Omission.tooMany 50).message spec importer ∉ g.warnings := by
    simp [hnone]
  have hlast : "landing/d.tsx" ∈ g.files.keys := by decide +kernel
  exact ⟨hentry, hwarnings, ((hfiles hwarnings _).1 hlast).2, hordered, by decide,
    hlimits 4 50 (by decide) (by decide)⟩

end VersionedSite.ImportGraph
