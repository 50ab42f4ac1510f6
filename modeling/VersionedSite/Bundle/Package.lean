import VersionedSite.Json.Reader
import VersionedSite.OrderedMap

/-!
# Runtime packages on disk

Where a specifier of an installed package leads, read off the package's manifest: the export for the
specifier, or the manifest's main files, or the file that the specifier names. The first candidate
that is a file wins.

* `segmentsFrom_normal`: a path without empty, `.` and `..` segments is kept as it is.
-/

namespace VersionedSite.Bundle

/-- The installed packages and where they are. -/
structure Installation where
  /-- The directory that holds `node_modules`. -/
  root : String
  /-- The files by their path under `node_modules`. -/
  files : OrderedMap String String := .empty

/-- What a path leads to. -/
inductive Entry where
  | file (text : String)
  | directory
  | nothing
  deriving DecidableEq, Repr

/-- Why a lookup breaks off. -/
inductive Breakdown where
  /-- A manifest is no JSON. -/
  | notJson
  /-- A value is not of the kind that is needed. -/
  | wrongKind
  /-- A file cannot be read. -/
  | notReadable
  deriving DecidableEq, Repr

/-! ## Paths -/

/-- The segments of a text between slashes. -/
def splitSlashes (s : String) : List String := s.splitOn "/"

/-- Segments put behind others in reverse, with `.` and `..` worked off; nothing if that leads out of
where the others begin. -/
def segmentsFrom : (reversed segments : List String) → Option (List String)
  | reversed, [] => some reversed.reverse
  | reversed, s :: rest =>
    if s = "" ∨ s = "." then segmentsFrom reversed rest
    else if s = ".." then
      match reversed with
      | [] => none
      | _ :: outer => segmentsFrom outer rest
    else segmentsFrom (s :: reversed) rest

theorem segmentsFrom_normal (reversed segments : List String)
    (h : ∀ s ∈ segments, s ≠ "" ∧ s ≠ "." ∧ s ≠ "..") :
    segmentsFrom reversed segments = some (reversed.reverse ++ segments) := by
  induction segments generalizing reversed with
  | nil => simp [segmentsFrom]
  | cons s rest ih =>
    have hs := h s (by simp)
    have ih := ih (s :: reversed) fun t ht => h t (by simp [ht])
    unfold segmentsFrom
    rw [if_neg (by simp [hs]), if_neg hs.2.2, ih]
    simp

namespace Installation

/-- What a path under `node_modules` leads to. -/
def entry (i : Installation) (path : String) : Entry :=
  match i.files.find? path with
  | some text => .file text
  | none => if i.files.keys.any (·.startsWith (path ++ "/")) then .directory else .nothing

/-- The whole path of a file that a candidate of a package names. -/
def file? (i : Installation) (package candidate : String) : Option String := do
  let segments ← segmentsFrom [] ("node_modules" :: package :: splitSlashes candidate)
  match segments with
  | "node_modules" :: inner =>
    match candidate.endsWith "/", i.entry ("/".intercalate inner) with
    | false, .file _ => some (i.root ++ "/" ++ "/".intercalate segments)
    | _, _ => none
  | _ => none

end Installation

/-! ## Manifests -/

/-- The conditions of an export, in the order in which they are tried. -/
def conditions : List String := ["browser", "import", "module", "default"]

/-- The first of the conditions that was picked for, given what was picked for each member. -/
def firstPick (picks : List (String × Option String)) : Option String :=
  conditions.findSome? fun c =>
    picks.findSome? fun p => if p.1 = c then p.2.filter (· ≠ "") else none

mutual

/-- The file that an export is picked to be: a text itself, of an object the first condition that
leads to a text. Halves of characters name no file and are replaced. -/
def pick : Json → Option String
  | .str s => some s
  | .rough p => some (String.ofList p.replaced)
  | .obj members => firstPick (pickMembers members)
  | _ => none

/-- What is picked for each member. -/
def pickMembers : List (String × Json) → List (String × Option String)
  | [] => []
  | (k, v) :: rest => (k, pick v) :: pickMembers rest

end

/-- Whether a value counts as given. -/
def isGiven : Json → Bool
  | .null => false
  | .bool b => b
  | .num n => !n.same (.int 0)
  | .str s => s ≠ ""
  | .rough _ | .arr _ | .obj _ => true

/-- The file that a manifest exports for a subpath. -/
def exported? (manifest : Json) (subpath : String) : Option String :=
  match manifest.member? "exports" with
  | some (.str s) => if subpath = "." then some s else none
  | some (.rough p) => if subpath = "." then some (String.ofList p.replaced) else none
  | some (.obj members) => (Json.lookup subpath members).bind pick
  | _ => none

/-- The candidates for a subpath of a package with a manifest. -/
def candidates (manifest : Json) (subpath : String) : List Json :=
  match (exported? manifest subpath).filter (· ≠ "") with
  | some file => [.str file]
  | none =>
    if subpath = "." then
      ([manifest.member? "module", manifest.member? "main"].filterMap id).filter isGiven ++
        [.str "index.js"]
    else [.str (subpath ++ ".js"), .str (subpath ++ "/index.js")]

/-- The first candidate that is a file; a candidate that is no text breaks the search off. -/
def firstFile (i : Installation) (package : String) : List Json → Except Breakdown (Option String)
  | [] => .ok none
  | .str c :: rest =>
    match i.file? package c with
    | some path => .ok (some path)
    | none => firstFile i package rest
  | .rough p :: rest =>
    match i.file? package (String.ofList p.replaced) with
    | some path => .ok (some path)
    | none => firstFile i package rest
  | _ :: _ => .error .wrongKind

/-- The package of a specifier and the subpath in it. -/
def splitSpecifier (spec : String) : String × String :=
  let name := spec.toList.takeWhile (· ≠ '/')
  let rest := spec.toList.drop name.length
  (String.ofList name, String.ofList ('.' :: rest))

/-- The whole path of the file that a specifier leads to, by its package's manifest. -/
def fromManifest (i : Installation) (spec : String) : Except Breakdown (Option String) :=
  let (package, subpath) := splitSpecifier spec
  match i.entry (package ++ "/package.json") with
  | .nothing => .ok none
  | .directory => .error .notReadable
  | .file text =>
    match Json.parse {} text with
    | .error _ => .error .notJson
    | .ok .null => .error .wrongKind
    | .ok manifest => firstFile i package (candidates manifest subpath)

end VersionedSite.Bundle
