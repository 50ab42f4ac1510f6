import Mathlib.Data.List.Nodup
import Mathlib.Data.List.Perm.Subperm
import VersionedSite.Imports.Graph
import VersionedSite.Proofs.OrderedMap

/-!
# What a walk settles

Every import that a walk has followed is settled for good (`Walk.Settled`): it has the resolution that
it is to have in the end, or none. An import that was refused stays refused, because neither limit ever
opens again: the files only get more, and the queue only gets deeper.

* `run_keeps`: what every step keeps of a graph, a walk keeps.
* `Settled.follow`: what following one specifier settles.
* `Settled.visit_keeping`, `Settled.run_keeping`: what a visit and a whole walk settle.
* `collect_settles`: the files, resolutions and warnings of the graph of an entry.
-/

namespace VersionedSite.ImportGraph

variable {snapshot : Snapshot} {limits : Limits} {importer spec : String}

/-! ## Imports and resolutions -/

/-- The stored path that a specifier of an importer names. -/
def target? (snapshot : Snapshot) (importer spec : String) : Option String :=
  (Imports.resolve? importer spec).bind fun path => Imports.findMatch? path snapshot.keys

/-- The path that a specifier of an importer leads to in a graph. -/
def resolution? (g : ImportGraph) (importer spec : String) : Option String :=
  (g.resolutions.find? importer).bind fun known => known.find? spec

/-- The imports of a graph: each of its files with each specifier of its source. -/
def imports (g : ImportGraph) : List (String × String) :=
  g.files.entries.flatMap fun e => (Imports.extract e.2).map fun spec => (e.1, spec)

/-- The imports of some stored paths. -/
def importsOf (snapshot : Snapshot) (paths : List String) : List (String × String) :=
  paths.flatMap fun path =>
    (Imports.extract ((snapshot.find? path).getD "")).map fun spec => (path, spec)

theorem mem_importsOf {paths : List String} :
    (importer, spec) ∈ importsOf snapshot paths ↔
      importer ∈ paths ∧ spec ∈ Imports.extract ((snapshot.find? importer).getD "") := by
  simp only [importsOf, List.mem_flatMap, List.mem_map, Prod.mk.injEq]
  constructor
  · rintro ⟨path, hp, s, hs, rfl, rfl⟩
    exact ⟨hp, hs⟩
  · rintro ⟨hp, hs⟩
    exact ⟨importer, hp, spec, hs, rfl, rfl⟩

theorem nodup_importsOf {paths : List String} (h : paths.Nodup) : (importsOf snapshot paths).Nodup := by
  refine List.nodup_flatMap.2 ⟨fun path _ => ?_, h.imp fun hne => ?_⟩
  · exact (Imports.extract_nodup _).map fun a b he => (Prod.mk.inj he).2
  · rintro ⟨a, b⟩ ha hb
    obtain ⟨_, -, he⟩ := List.mem_map.1 ha
    obtain ⟨_, -, he'⟩ := List.mem_map.1 hb
    exact hne ((Prod.mk.inj he).1.trans (Prod.mk.inj he').1.symm)

theorem target?_mem {path : String} (h : target? snapshot importer spec = some path) :
    path ∈ snapshot.keys := by
  obtain ⟨_, -, hp⟩ := Option.bind_eq_some_iff.1 h
  exact Imports.findMatch?_mem hp

theorem lookup?_eq (snapshot : Snapshot) (importer spec : String) :
    lookup? snapshot importer spec =
      (target? snapshot importer spec).bind fun path =>
        (snapshot.find? path).map fun source => (path, source) := by
  rw [lookup?, target?, Option.bind_assoc]

theorem resolution?_resolving (g : ImportGraph) (importer spec path i s : String) :
    (g.resolving importer spec path).resolution? i s =
      if (i, s) = (importer, spec) then some path else g.resolution? i s := by
  unfold resolution? resolving
  by_cases hi : i = importer
  · subst hi
    rw [OrderedMap.find?_insert_self, Option.bind_some]
    by_cases hs : s = spec
    · simp [hs]
    · rw [OrderedMap.find?_insert_of_ne _ hs, if_neg (by simp [hs])]
      cases g.resolutions.find? i <;> rfl
  · rw [OrderedMap.find?_insert_of_ne _ hi, if_neg (by simp [hi])]

/-- Resolutions that are told in one way only: no key repeats, and no importer is there for nothing. -/
structure Tabled (resolutions : OrderedMap String (OrderedMap String String)) : Prop where
  nodup : resolutions.keys.Nodup
  known : ∀ e ∈ resolutions.entries, e.2.keys.Nodup ∧ e.2.entries ≠ []

theorem Tabled.resolving {g : ImportGraph} (h : Tabled g.resolutions) (importer spec path : String) :
    Tabled (g.resolving importer spec path).resolutions := by
  refine ⟨OrderedMap.nodup_keys_insert h.nodup _ _, fun e he => ?_⟩
  have hknown : ((g.resolutions.find? importer).getD .empty).keys.Nodup := by
    cases hf : g.resolutions.find? importer with
    | none => exact List.nodup_nil
    | some known => exact (h.known _ (OrderedMap.mem_keys_of_find? hf)).1
  rcases OrderedMap.mem_entries_insert he with he | he
  · exact h.known e he
  · rw [he]
    refine ⟨OrderedMap.nodup_keys_insert hknown _ _, fun hn => ?_⟩
    have hfind := OrderedMap.find?_insert_self ((g.resolutions.find? importer).getD .empty) spec path
    rw [OrderedMap.find?, hn] at hfind
    cases hfind

/-! ## Walks -/

/-- Whether no import of a file at a level can add a file. -/
def Full (limits : Limits) (level : Nat) (g : ImportGraph) : Prop :=
  limits.depth < level + 1 ∨ limits.files ≤ g.files.size

/-- A walk from a root that has visited some paths and settled some imports, whose queue begins at a
level. -/
structure Walk.Settled (snapshot : Snapshot) (limits : Limits) (root : String) (visited : List String)
    (settled : List (String × String)) (level : Nat) (w : Walk) : Prop where
  entry_eq : w.graph.entry = root
  root_mem : root ∈ w.graph.files.keys
  stored : ∀ e ∈ w.graph.files.entries, snapshot.find? e.1 = some e.2
  keys_eq : w.graph.files.keys = visited ++ w.queue.map Prod.fst
  nodup : w.graph.files.keys.Nodup
  size_le : (w.graph.files.size : Int) ≤ max 1 limits.files
  ascending : (w.queue.map Prod.snd).Pairwise (· ≤ ·)
  levels : ∀ e ∈ w.queue, level ≤ e.2 ∧ e.2 ≤ level + 1
  tabled : Tabled w.graph.resolutions
  resolution_iff : ∀ importer spec path, w.graph.resolution? importer spec = some path ↔
    (importer, spec) ∈ settled ∧ target? snapshot importer spec = some path ∧
      path ∈ w.graph.files.keys
  /-- What was refused will not be reached either. -/
  full : ∀ importer spec path, (importer, spec) ∈ settled →
    target? snapshot importer spec = some path → path ∉ w.graph.files.keys → Full limits level w.graph
  warnings_length : w.graph.warnings.length =
    settled.countP fun i => (w.graph.resolution? i.1 i.2).isNone

namespace Walk

/-- Following a specifier adds a warning, a resolution, or a file with a resolution. -/
theorem follow_cases (snapshot : Snapshot) (limits : Limits) (importer : String) (level : Nat)
    (w : Walk) (spec : String) :
    (∃ why, w.follow snapshot limits importer level spec =
        { w with graph := w.graph.omitting spec importer why } ∧
      ∀ path, target? snapshot importer spec = some path →
        path ∉ w.graph.files.keys ∧ Full limits level w.graph) ∨
    ∃ path, target? snapshot importer spec = some path ∧
      (path ∈ w.graph.files.keys ∧ w.follow snapshot limits importer level spec =
          { w with graph := w.graph.resolving importer spec path } ∨
        path ∉ w.graph.files.keys ∧ ¬Full limits level w.graph ∧
          ∃ source, snapshot.find? path = some source ∧
            w.follow snapshot limits importer level spec =
              { graph := { w.graph with files := w.graph.files.insert path source }.resolving
                  importer spec path
                queue := w.queue ++ [(path, level + 1)] }) := by
  unfold follow
  rw [lookup?_eq]
  cases ht : target? snapshot importer spec with
  | none => exact .inl ⟨_, rfl, by simp⟩
  | some path =>
    obtain ⟨source, hs⟩ := OrderedMap.exists_find?_of_mem (target?_mem ht)
    simp only [hs, Option.bind_some, Option.map_some, Option.some.injEq, OrderedMap.contains_iff]
    by_cases hm : path ∈ w.graph.files.keys
    · rw [if_pos hm]
      exact .inr ⟨path, rfl, .inl ⟨hm, rfl⟩⟩
    · rw [if_neg hm]
      by_cases hd : (level : Int) + 1 > limits.depth
      · rw [if_pos hd]
        exact .inl ⟨_, rfl, fun _ hp => ⟨hp ▸ hm, .inl hd⟩⟩
      · rw [if_neg hd]
        by_cases hf : (w.graph.files.size : Int) ≥ limits.files
        · rw [if_pos hf]
          exact .inl ⟨_, rfl, fun _ hp => ⟨hp ▸ hm, .inr hf⟩⟩
        · rw [if_neg hf]
          exact .inr ⟨path, rfl, .inr ⟨hm, not_or.2 ⟨hd, hf⟩, source, hs, rfl⟩⟩

/-- What following any specifier keeps of a graph, a visit keeps. -/
theorem visit_keeps {P : ImportGraph → Prop}
    (hfollow : ∀ (w : Walk) importer level spec,
      P w.graph → P (w.follow snapshot limits importer level spec).graph)
    {w : Walk} (h : P w.graph) (importer : String) (level : Nat) :
    P (w.visit snapshot limits importer level).graph := by
  unfold visit
  generalize Imports.extract ((w.graph.files.find? importer).getD "") = specs
  induction specs generalizing w with
  | nil => exact h
  | cons spec specs ih => exact ih (hfollow w importer level spec h)

/-- What following any specifier keeps of a graph, a walk keeps. -/
theorem run_keeps {P : ImportGraph → Prop}
    (hfollow : ∀ (w : Walk) importer level spec,
      P w.graph → P (w.follow snapshot limits importer level spec).graph)
    (fuel : Nat) {w : Walk} (h : P w.graph) : P (w.run snapshot limits fuel) := by
  induction fuel generalizing w with
  | zero => exact h
  | succ fuel ih =>
    rw [run]
    split
    · exact h
    · rename_i importer level rest _
      exact ih (visit_keeps hfollow (w := ⟨w.graph, rest⟩) h importer level)

namespace Settled

variable {root : String} {visited : List String} {settled : List (String × String)} {level : Nat} {w : Walk}

/-- A specifier that leads to no file of the graph is settled without a resolution. -/
theorem refuse (h : w.Settled snapshot limits root visited settled level) (hn : (importer, spec) ∉ settled)
    (ht : ∀ path, target? snapshot importer spec = some path →
      path ∉ w.graph.files.keys ∧ Full limits level w.graph) (why : Omission) :
    Settled snapshot limits root visited (settled ++ [(importer, spec)]) level
      { w with graph := w.graph.omitting spec importer why } where
  entry_eq := h.entry_eq
  root_mem := h.root_mem
  stored := h.stored
  keys_eq := h.keys_eq
  nodup := h.nodup
  size_le := h.size_le
  ascending := h.ascending
  levels := h.levels
  tabled := h.tabled
  resolution_iff i s path := by
    refine (h.resolution_iff i s path).trans ⟨fun ⟨hi, hp⟩ => ⟨List.mem_append_left _ hi, hp⟩, ?_⟩
    rintro ⟨hi, hp, hm⟩
    rcases List.mem_append.1 hi with hi | hi
    · exact ⟨hi, hp, hm⟩
    · obtain ⟨rfl, rfl⟩ := Prod.mk.inj (List.mem_singleton.1 hi)
      exact absurd hm (ht path hp).1
  full i s path hi hp hm := by
    rcases List.mem_append.1 hi with hi | hi
    · exact h.full i s path hi hp hm
    · obtain ⟨rfl, rfl⟩ := Prod.mk.inj (List.mem_singleton.1 hi)
      exact (ht path hp).2
  warnings_length := by
    have hnone : w.graph.resolution? importer spec = none := by
      refine Option.eq_none_iff_forall_ne_some.2 fun path hp => ?_
      exact hn ((h.resolution_iff _ _ _).1 hp).1
    have hsame : ({ w with graph := w.graph.omitting spec importer why } : Walk).graph.resolution? =
      w.graph.resolution? := rfl
    rw [hsame, List.countP_append, ← h.warnings_length, List.countP_singleton, hnone]
    simp [omitting]

/-- A specifier that leads to a file of the graph is settled with its resolution. -/
theorem resolve (h : w.Settled snapshot limits root visited settled level) (hn : (importer, spec) ∉ settled)
    {path : String} (ht : target? snapshot importer spec = some path)
    (hm : path ∈ w.graph.files.keys) :
    Settled snapshot limits root visited (settled ++ [(importer, spec)]) level
      { w with graph := w.graph.resolving importer spec path } where
  entry_eq := h.entry_eq
  root_mem := h.root_mem
  stored := h.stored
  keys_eq := h.keys_eq
  nodup := h.nodup
  size_le := h.size_le
  ascending := h.ascending
  levels := h.levels
  tabled := h.tabled.resolving _ _ _
  resolution_iff i s p := by
    rw [resolution?_resolving, List.mem_append, List.mem_singleton]
    split
    · rename_i he
      obtain ⟨rfl, rfl⟩ := Prod.mk.inj he
      constructor
      · rintro ⟨⟩
        exact ⟨.inr rfl, ht, hm⟩
      · rintro ⟨-, hp, -⟩
        exact ht.symm.trans hp
    · rename_i hne
      rw [or_iff_left hne]
      exact h.resolution_iff i s p
  full i s p hi hp hmp := by
    rcases List.mem_append.1 hi with hi | hi
    · exact h.full i s p hi hp hmp
    · obtain ⟨rfl, rfl⟩ := Prod.mk.inj (List.mem_singleton.1 hi)
      cases ht.symm.trans hp
      exact absurd hm hmp
  warnings_length := by
    have hold : ∀ i ∈ settled, (w.graph.resolving importer spec path).resolution? i.1 i.2 =
        w.graph.resolution? i.1 i.2 := by
      intro i hi
      have hne : i ≠ (importer, spec) := fun he => hn (he ▸ hi)
      rw [resolution?_resolving, if_neg hne]
    rw [List.countP_append, List.countP_singleton, resolution?_resolving, if_pos rfl]
    refine h.warnings_length.trans (List.countP_congr fun i hi => ?_)
    rw [hold i hi]

/-- One more file, while there is room for one: what was settled had not been refused. -/
theorem add (h : w.Settled snapshot limits root visited settled level) (hf : ¬Full limits level w.graph)
    {path source : String} (hm : path ∉ w.graph.files.keys)
    (hs : snapshot.find? path = some source) :
    Settled snapshot limits root visited settled level
      { graph := { w.graph with files := w.graph.files.insert path source }
        queue := w.queue ++ [(path, level + 1)] } := by
  have hkeys : (w.graph.files.insert path source).keys = w.graph.files.keys ++ [path] :=
    OrderedMap.keys_insert_of_not_mem _ hm _
  have hsize : (w.graph.files.insert path source).size = w.graph.files.size + 1 := by
    have hlength := congrArg List.length hkeys
    simpa [OrderedMap.keys, OrderedMap.size] using hlength
  have hroom := not_or.1 hf
  have hroot : root ∈ (w.graph.files.insert path source).keys :=
    hkeys ▸ List.mem_append_left _ h.root_mem
  refine ⟨h.entry_eq, hroot, ?_, ?_, ?_, ?_, ?_, ?_, h.tabled, ?_, ?_, h.warnings_length⟩
  · intro e he
    rcases List.mem_cons.1 (OrderedMap.entries_insert_subset _ _ _ he) with rfl | he
    · exact hs
    · exact h.stored e he
  · rw [hkeys, h.keys_eq, List.map_append, List.append_assoc]
    rfl
  · exact OrderedMap.nodup_keys_insert h.nodup _ _
  · have hlt := hroom.2
    rw [hsize]
    omega
  · rw [List.map_append, List.map_singleton, List.pairwise_append]
    refine ⟨h.ascending, List.pairwise_singleton _ _, fun d hd n hn => ?_⟩
    obtain ⟨e, he, rfl⟩ := List.mem_map.1 hd
    rw [List.mem_singleton.1 hn]
    exact (h.levels e he).2
  · intro e he
    rcases List.mem_append.1 he with he | he
    · exact h.levels e he
    · rw [List.mem_singleton.1 he]
      exact ⟨Nat.le_succ _, Nat.le_refl _⟩
  · intro i s p
    refine (h.resolution_iff i s p).trans (and_congr_right fun hi => and_congr_right fun hp => ?_)
    have hin : p ∈ w.graph.files.keys := by_contra fun hout => hf (h.full i s p hi hp hout)
    simp [hkeys, hin]
  · intro i s p hi hp hout
    have hout' : p ∉ w.graph.files.keys := fun hin => hout (hkeys ▸ List.mem_append_left _ hin)
    exact absurd (h.full i s p hi hp hout') hf

/-- What following one specifier settles. -/
theorem follow (h : w.Settled snapshot limits root visited settled level)
    (hn : (importer, spec) ∉ settled) :
    (w.follow snapshot limits importer level spec).Settled snapshot limits root visited
      (settled ++ [(importer, spec)]) level := by
  obtain ⟨why, he, ht⟩ | ⟨path, ht, ⟨hm, he⟩ | ⟨hm, hf, source, hs, he⟩⟩ :=
    follow_cases snapshot limits importer level w spec <;> rw [he]
  · exact h.refuse hn ht why
  · exact h.resolve hn ht hm
  · refine (h.add hf hm hs).resolve hn ht ?_
    rw [OrderedMap.keys_insert_of_not_mem _ hm]
    exact List.mem_append_right _ (List.mem_singleton_self _)

/-- What following all specifiers of a file settles, and what it keeps of what following each one keeps. -/
theorem foldl_follow_keeping {P : List (String × String) → Walk → Prop} {specs : List String}
    (hfollow : ∀ {settled w}, ∀ spec ∈ specs, Settled snapshot limits root visited settled level w →
      P settled w → P (settled ++ [(importer, spec)]) (w.follow snapshot limits importer level spec))
    (h : w.Settled snapshot limits root visited settled level) (hP : P settled w)
    (hspecs : specs.Nodup) (hn : ∀ spec ∈ specs, (importer, spec) ∉ settled) :
    (specs.foldl (Walk.follow snapshot limits importer level) w).Settled snapshot limits root visited
        (settled ++ specs.map fun spec => (importer, spec)) level ∧
      P (settled ++ specs.map fun spec => (importer, spec))
        (specs.foldl (Walk.follow snapshot limits importer level) w) := by
  induction specs generalizing settled w with
  | nil => simpa using ⟨h, hP⟩
  | cons spec specs ih =>
    rw [List.nodup_cons] at hspecs
    have hfirst := h.follow (hn spec List.mem_cons_self)
    have hrest := ih (fun spec hs => hfollow spec (List.mem_cons_of_mem _ hs)) hfirst
      (hfollow spec List.mem_cons_self h hP) hspecs.2 fun s hs hm => by
        rcases List.mem_append.1 hm with hm | hm
        · exact hn s (List.mem_cons_of_mem _ hs) hm
        · have he := (Prod.mk.inj (List.mem_singleton.1 hm)).2
          exact hspecs.1 (he ▸ hs)
    rw [List.append_assoc] at hrest
    exact hrest

theorem find?_eq (h : w.Settled snapshot limits root visited settled level) {path : String}
    (hm : path ∈ w.graph.files.keys) : w.graph.files.find? path = snapshot.find? path := by
  obtain ⟨source, hs⟩ := OrderedMap.exists_find?_of_mem hm
  exact hs.trans (h.stored _ (OrderedMap.mem_keys_of_find? hs)).symm

theorem subset (h : w.Settled snapshot limits root visited settled level) :
    w.graph.files.keys ⊆ snapshot.keys := by
  intro path hp
  obtain ⟨e, he, rfl⟩ := List.mem_map.1 hp
  exact List.mem_map_of_mem (OrderedMap.mem_keys_of_find? (h.stored e he))

/-- The next file is about to be visited: the level goes up to that of the file, so what was full stays
full. -/
theorem next {depth : Nat} {rest : List (String × Nat)}
    (h : w.Settled snapshot limits root visited settled level) (hq : w.queue = (importer, depth) :: rest) :
    Settled snapshot limits root (visited ++ [importer]) settled depth { w with queue := rest } := by
  have hlevels := h.levels
  have hascending := h.ascending
  rw [hq, List.map_cons, List.pairwise_cons] at hascending
  rw [hq] at hlevels
  have hhead := hlevels _ List.mem_cons_self
  exact { h with
    keys_eq := by rw [h.keys_eq, hq, List.map_cons, List.append_cons]
    ascending := hascending.2
    levels := fun e he =>
      ⟨hascending.1 _ (List.mem_map_of_mem he),
        Nat.le_trans (hlevels e (List.mem_cons_of_mem _ he)).2 (Nat.succ_le_succ hhead.1)⟩
    full := fun i s p hi hp hm =>
      (h.full i s p hi hp hm).imp_left fun hd => by have hle := hhead.1; omega }

/-- What a visit to the next file settles, and what it keeps of what following each of its specifiers
keeps. -/
theorem visit_keeping {P : List (String × String) → Walk → Prop} {depth : Nat}
    {rest : List (String × Nat)}
    (hfollow : ∀ {settled w}, ∀ spec ∈ Imports.extract ((snapshot.find? importer).getD ""),
      Settled snapshot limits root (visited ++ [importer]) settled depth w → P settled w →
      P (settled ++ [(importer, spec)]) (w.follow snapshot limits importer depth spec))
    (h : w.Settled snapshot limits root visited (importsOf snapshot visited) level)
    (hq : w.queue = (importer, depth) :: rest)
    (hP : P (importsOf snapshot visited) { w with queue := rest }) :
    (Walk.visit snapshot limits { w with queue := rest } importer depth).Settled snapshot limits
        root (visited ++ [importer]) (importsOf snapshot (visited ++ [importer])) depth ∧
      P (importsOf snapshot (visited ++ [importer]))
        (Walk.visit snapshot limits { w with queue := rest } importer depth) := by
  have hnext := h.next hq
  have hmem : importer ∈ w.graph.files.keys := by
    rw [h.keys_eq, hq]
    simp
  have hnew : importer ∉ visited := by
    have hnodup := (hnext.keys_eq ▸ hnext.nodup).sublist (List.sublist_append_left _ _)
    exact fun hin => (List.nodup_append.1 hnodup).2.2 _ hin _ (List.mem_singleton_self _) rfl
  have hopen : ∀ spec ∈ Imports.extract ((snapshot.find? importer).getD ""),
      (importer, spec) ∉ importsOf snapshot visited :=
    fun spec _ hs => hnew (mem_importsOf.1 hs).1
  have hsettled := hnext.foldl_follow_keeping hfollow hP (Imports.extract_nodup _) hopen
  rw [Walk.visit, h.find?_eq hmem]
  rw [importsOf, List.flatMap_append, ← importsOf, List.flatMap_singleton]
  exact hsettled

/-- What a visit to the next file settles. -/
theorem visit {depth : Nat} {rest : List (String × Nat)}
    (h : w.Settled snapshot limits root visited (importsOf snapshot visited) level)
    (hq : w.queue = (importer, depth) :: rest) :
    (Walk.visit snapshot limits { w with queue := rest } importer depth).Settled snapshot limits
      root (visited ++ [importer]) (importsOf snapshot (visited ++ [importer])) depth :=
  (h.visit_keeping (P := fun _ _ => True) (fun _ _ _ _ => trivial) hq trivial).1

/-- As many visits as there are stored paths leave no file to visit. -/
theorem queue_eq_nil {done : List (String × String)}
    (h : w.Settled snapshot limits root visited done level) (hsize : snapshot.size ≤ visited.length) :
    w.queue = [] := by
  have hlength := (List.subperm_of_subset h.nodup h.subset).length_le
  rw [h.keys_eq, List.length_append, List.length_map, OrderedMap.keys, List.length_map] at hlength
  refine List.eq_nil_of_length_eq_zero ?_
  rw [OrderedMap.size] at hsize
  omega

/-- What a whole walk settles, if there are as many visits as there are stored paths, and what it keeps of
what every visit keeps. -/
theorem run_keeping {P : List String → Nat → Walk → Prop}
    (hvisit : ∀ {visited level w importer depth rest},
      Settled snapshot limits root visited (importsOf snapshot visited) level w →
      w.queue = (importer, depth) :: rest → P visited level w →
      P (visited ++ [importer]) depth
        (Walk.visit snapshot limits { w with queue := rest } importer depth))
    (fuel : Nat) (h : w.Settled snapshot limits root visited (importsOf snapshot visited) level)
    (hP : P visited level w) (hfuel : snapshot.size ≤ visited.length + fuel) :
    ∃ paths level, Settled snapshot limits root paths (importsOf snapshot paths) level
      { graph := Walk.run snapshot limits fuel w } ∧
      P paths level { graph := Walk.run snapshot limits fuel w } := by
  induction fuel generalizing visited level w with
  | zero =>
    have hempty := h.queue_eq_nil hfuel
    obtain ⟨graph, queue⟩ := w
    cases hempty
    exact ⟨visited, level, h, hP⟩
  | succ fuel ih =>
    obtain ⟨graph, queue⟩ := w
    cases queue with
    | nil => exact ⟨visited, level, h, hP⟩
    | cons e rest =>
      refine ih (h.visit rfl) (hvisit h rfl hP) ?_
      rw [List.length_append, List.length_singleton]
      omega

/-- What a whole walk settles, if there are as many visits as there are stored paths. -/
theorem run (fuel : Nat)
    (h : w.Settled snapshot limits root visited (importsOf snapshot visited) level)
    (hfuel : snapshot.size ≤ visited.length + fuel) :
    ∃ paths level, Settled snapshot limits root paths (importsOf snapshot paths) level
      { graph := Walk.run snapshot limits fuel w } := by
  obtain ⟨paths, level, hw, -⟩ :=
    h.run_keeping (P := fun _ _ _ => True) (fun _ _ _ => trivial) fuel trivial hfuel
  exact ⟨paths, level, hw⟩

/-- The walk that a graph is collected by, before its first visit. -/
theorem start {source : String} (limits : Limits) (hs : snapshot.find? root = some source) :
    Settled snapshot limits root [] [] 0
      { graph := { entry := root, files := OrderedMap.empty.insert root source }
        queue := [(root, 0)] } where
  entry_eq := rfl
  root_mem := List.mem_singleton_self _
  stored e he := by
    rw [List.mem_singleton.1 he]
    exact hs
  keys_eq := rfl
  nodup := List.nodup_singleton _
  size_le := Int.le_max_left _ _
  ascending := List.pairwise_singleton _ _
  levels e he := by simp [List.mem_singleton.1 he]
  tabled := ⟨List.nodup_nil, by simp [OrderedMap.empty]⟩
  resolution_iff := by simp [resolution?]
  full := by simp
  warnings_length := rfl

end Settled

end Walk

/-! ## Graphs -/

theorem imports_eq {g : ImportGraph} (h : ∀ e ∈ g.files.entries, snapshot.find? e.1 = some e.2) :
    g.imports = importsOf snapshot g.files.keys := by
  rw [imports, importsOf, OrderedMap.keys, List.flatMap_map]
  refine List.flatMap_congr fun e he => ?_
  rw [h e he, Option.getD_some]

theorem Tabled.resolution?_eq {g : ImportGraph} (h : Tabled g.resolutions)
    {e : String × OrderedMap String String} (he : e ∈ g.resolutions.entries) {f : String × String}
    (hf : f ∈ e.2.entries) : g.resolution? e.1 f.1 = some f.2 := by
  rw [resolution?, (OrderedMap.find?_eq_some_iff h.nodup).2 he, Option.bind_some]
  exact (OrderedMap.find?_eq_some_iff (h.known e he).1).2 hf

theorem collect_eq_run {entry root source : String} (limits : Limits)
    (h : Imports.findMatch? entry snapshot.keys = some root) (hs : snapshot.find? root = some source) :
    collect entry snapshot limits = Walk.run snapshot limits snapshot.size
      { graph := { entry := root, files := OrderedMap.empty.insert root source }
        queue := [(root, 0)] } := by
  simp only [collect, h, Option.bind_some, hs, Option.map_some]

/-- The graph of an entry that is stored is what a whole walk has settled. -/
theorem exists_settled_collect {entry root : String} (limits : Limits)
    (h : Imports.findMatch? entry snapshot.keys = some root) :
    ∃ level, Walk.Settled snapshot limits root (collect entry snapshot limits).files.keys
      (importsOf snapshot (collect entry snapshot limits).files.keys) level
      { graph := collect entry snapshot limits } := by
  obtain ⟨source, hs⟩ := OrderedMap.exists_find?_of_mem (Imports.findMatch?_mem h)
  obtain ⟨paths, level, hw⟩ := (Walk.Settled.start limits hs).run snapshot.size (by simp)
  rw [← collect_eq_run limits h hs] at hw
  have hkeys : (collect entry snapshot limits).files.keys = paths := by
    simpa using hw.keys_eq
  exact ⟨level, hkeys ▸ hw⟩

/-- The graph of an entry that is stored: its files are stored ones, as many as the limit admits; its
resolutions are those of its imports that name one of its files, and all other imports have a warning
each. -/
theorem collect_settles {entry path : String} (limits : Limits)
    (h : Imports.findMatch? entry snapshot.keys = some path) :
    let g := collect entry snapshot limits
    g.entry = path ∧ path ∈ g.files.keys ∧ g.files.keys.Nodup ∧
    (∀ e ∈ g.files.entries, snapshot.find? e.1 = some e.2) ∧
    (g.files.size : Int) ≤ max 1 limits.files ∧
    (∀ importer spec target, g.resolution? importer spec = some target ↔
      (importer, spec) ∈ g.imports ∧ target? snapshot importer spec = some target ∧
        target ∈ g.files.keys) ∧
    (∀ e ∈ g.resolutions.entries, e.2.entries ≠ [] ∧
      ∀ f ∈ e.2.entries, g.resolution? e.1 f.1 = some f.2) ∧
    g.imports.Nodup ∧
    g.warnings.length = g.imports.countP fun i => (g.resolution? i.1 i.2).isNone := by
  obtain ⟨source, hs⟩ := OrderedMap.exists_find?_of_mem (Imports.findMatch?_mem h)
  obtain ⟨paths, level, hw⟩ := (Walk.Settled.start limits hs).run snapshot.size (by simp)
  have hcollect : collect entry snapshot limits =
      Walk.run snapshot limits snapshot.size
        { graph := { entry := path, files := OrderedMap.empty.insert path source }
          queue := [(path, 0)] } := by
    simp only [collect, h, Option.bind_some, hs, Option.map_some]
  rw [← hcollect] at hw
  have hkeys := hw.keys_eq
  rw [List.map_nil, List.append_nil] at hkeys
  have himports : (collect entry snapshot limits).imports = importsOf snapshot paths := by
    rw [imports_eq hw.stored, hkeys]
  refine ⟨hw.entry_eq, hw.root_mem, hw.nodup, hw.stored, hw.size_le, ?_, fun e he => ?_, ?_, ?_⟩
  · rw [himports]
    exact hw.resolution_iff
  · exact ⟨(hw.tabled.known e he).2, fun f hf => hw.tabled.resolution?_eq he hf⟩
  · rw [himports]
    exact nodup_importsOf (hkeys ▸ hw.nodup)
  · rw [himports]
    exact hw.warnings_length

/-- A site whose root and one of its files import each other; one import leads nowhere and one is behind
the other file. -/
def entangled : Snapshot := .ofList
  [("landing/index.tsx", "import './a'\nimport './gone'\n"),
   ("landing/a.tsx", "import './index'\nimport './c'\n"), ("landing/c.tsx", "")]

/-- One level deep, the import that leads back has a resolution and the one that leads on has none. -/
theorem collect_settles_entangled :
    Imports.findMatch? "landing/index" entangled.keys = some "landing/index.tsx" ∧
      let g := collect "landing/index" entangled { depth := 1 }
      g.resolution? "landing/a.tsx" "./index" = some "landing/index.tsx" ∧
        g.resolution? "landing/a.tsx" "./c" = none ∧ g.warnings.length = 2 := by
  have hentry : Imports.findMatch? "landing/index" entangled.keys = some "landing/index.tsx" := by
    decide +kernel
  obtain ⟨-, -, -, -, -, hresolution, -, -, hwarnings⟩ :=
    collect_settles { depth := 1 } hentry
  refine ⟨hentry, (hresolution _ _ _).2 (by decide +kernel), ?_, hwarnings.trans (by decide +kernel)⟩
  refine Option.eq_none_iff_forall_ne_some.2 fun target ht => ?_
  have hc : target? entangled "landing/a.tsx" "./c" = some "landing/c.tsx" := by decide +kernel
  obtain ⟨-, htarget, hm⟩ := (hresolution _ _ _).1 ht
  cases hc.symm.trans htarget
  exact absurd hm (by decide +kernel)

end VersionedSite.ImportGraph
