import VersionedSite.Imports.Lookup
import VersionedSite.Imports.Resolve
import VersionedSite.OrderedMap

/-!
# Import graphs

The files that an entry reaches through project imports, inside one snapshot of stored sources. The
walk is breadth first. A specifier that leads nowhere, too deep or past the file limit is left out
with a warning, so that a half-written site still has a graph.

* `collect_notFound`: without an entry the graph is empty and says so.
-/

namespace VersionedSite

/-- Sources by stored path. -/
abbrev Snapshot := OrderedMap String String

/-- The files reachable from an entry, in order of discovery, with their resolved imports. -/
structure ImportGraph where
  /-- The stored path of the entry; the requested one if there is none. -/
  entry : String
  /-- The source of each reached path. -/
  files : OrderedMap String String := .empty
  /-- For each importer that has any, its specifiers with the paths they lead to. -/
  resolutions : OrderedMap String (OrderedMap String String) := .empty
  /-- One line for each specifier without a resolution. -/
  warnings : List String := []

namespace ImportGraph

/-- How far a walk goes. -/
structure Limits where
  /-- The number of imports between the entry and any file. -/
  depth : Int := 10
  /-- The number of files. -/
  files : Int := 50

/-- Why a specifier has no resolution. -/
inductive Omission where
  | unresolved
  | tooDeep (limit : Int)
  | tooMany (limit : Int)

/-- The warning for a specifier of an importer. -/
def Omission.message (spec importer : String) : Omission → String
  | unresolved => s!"Unresolved import '{spec}' in {importer}"
  | tooDeep limit => s!"Import '{spec}' in {importer} exceeds depth limit {limit}"
  | tooMany limit => s!"Import '{spec}' in {importer} exceeds file limit {limit}"

/-- The graph with one more warning. -/
def omitting (g : ImportGraph) (spec importer : String) (why : Omission) : ImportGraph :=
  { g with warnings := g.warnings ++ [why.message spec importer] }

/-- The graph in which a specifier of an importer leads to a path. -/
def resolving (g : ImportGraph) (importer spec path : String) : ImportGraph :=
  let known := (g.resolutions.find? importer).getD .empty
  { g with resolutions := g.resolutions.insert importer (known.insert spec path) }

/-- A walk under way: the graph so far and the reached files whose imports are still to be
followed, each with its depth. -/
structure Walk where
  graph : ImportGraph
  queue : List (String × Nat) := []

/-- The stored path and source that a specifier of an importer leads to. -/
def lookup? (snapshot : Snapshot) (importer spec : String) : Option (String × String) :=
  (Imports.resolve? importer spec).bind fun target =>
    (Imports.findMatch? target snapshot.keys).bind fun path =>
      (snapshot.find? path).map fun source => (path, source)

/-- Follow one specifier of an importer at a depth. -/
def Walk.follow (snapshot : Snapshot) (limits : Limits) (importer : String) (depth : Nat)
    (w : Walk) (spec : String) : Walk :=
  match lookup? snapshot importer spec with
  | none => { w with graph := w.graph.omitting spec importer .unresolved }
  | some (path, source) =>
    if w.graph.files.contains path then { w with graph := w.graph.resolving importer spec path }
    else if (depth : Int) + 1 > limits.depth then
      { w with graph := w.graph.omitting spec importer (.tooDeep limits.depth) }
    else if (w.graph.files.size : Int) ≥ limits.files then
      { w with graph := w.graph.omitting spec importer (.tooMany limits.files) }
    else
      let added := { w.graph with files := w.graph.files.insert path source }
      { graph := added.resolving importer spec path, queue := w.queue ++ [(path, depth + 1)] }

/-- Follow all imports of one file. -/
def Walk.visit (snapshot : Snapshot) (limits : Limits) (w : Walk) (importer : String)
    (depth : Nat) : Walk :=
  (Imports.extract ((w.graph.files.find? importer).getD "")).foldl
    (Walk.follow snapshot limits importer depth) w

/-- Visit the queued files in turn, at most `fuel` of them. -/
def Walk.run (snapshot : Snapshot) (limits : Limits) : (fuel : Nat) → Walk → ImportGraph
  | 0, w => w.graph
  | fuel + 1, w =>
    match w.queue with
    | [] => w.graph
    | (importer, depth) :: rest =>
      Walk.run snapshot limits fuel (Walk.visit snapshot limits { w with queue := rest } importer depth)

/-- The graph of an entry in a snapshot. Each stored path is queued at most once, so as many visits
as the snapshot has paths are enough. -/
def collect (entry : String) (snapshot : Snapshot) (limits : Limits := {}) : ImportGraph :=
  match (Imports.findMatch? entry snapshot.keys).bind fun path =>
      (snapshot.find? path).map fun source => (path, source) with
  | none => { entry, warnings := [s!"Entry {entry} not found"] }
  | some (path, source) =>
    Walk.run snapshot limits snapshot.size
      { graph := { entry := path, files := OrderedMap.empty.insert path source }
        queue := [(path, 0)] }

theorem collect_notFound {entry : String} {snapshot : Snapshot} (limits : Limits)
    (h : Imports.findMatch? entry snapshot.keys = none) :
    collect entry snapshot limits = { entry, warnings := [s!"Entry {entry} not found"] } := by
  simp [collect, h]

end ImportGraph

end VersionedSite
