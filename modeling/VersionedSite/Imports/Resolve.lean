import VersionedSite.Imports.Specifier
import VersionedSite.Path.Basic

/-!
# Where a specifier leads

A project specifier is read against the directory of the importing file, or against the site root
when it begins with `@/`. The result is a component path below the site root, or nothing.

* `resolve?_canonical`: a result is the canonical form of a path below the site root.
-/

namespace VersionedSite.Imports

open Text

/-- The directory part of a path: what stands before its last slash. -/
def directory (path : List Char) : List Char :=
  ((path.reverse.dropWhile (· != '/')).dropWhile (· == '/')).reverse

/-- Whether a path begins at the file system's root. -/
def isAbsolute (path : List Char) : Bool := path.head? == some '/'

/-- One more segment on a walk, whose steps so far are in reverse: empty segments and `.` stay,
`..` goes up, beyond the start if need be. -/
def walkStep (done : List (List Char)) (segment : List Char) : List (List Char) :=
  if segment == [] || segment == ['.'] then done
  else if segment == ['.', '.'] then
    match done with
    | top :: below => if top == ['.', '.'] then segment :: done else below
    | [] => [segment]
  else segment :: done

/-- The segments that a relative path leads through in the end. -/
def walk (path : List Char) : List (List Char) :=
  ((Path.segments path).foldl walkStep []).reverse

/-- The path below the site root that a relative path leads to. -/
def belowRoot? (path : List Char) : Option (List Char) :=
  match walk path with
  | first :: second :: rest =>
    if first == Path.siteRoot.toList then
      some (List.intercalate ['/'] (first :: second :: rest))
    else none
  | _ => none

/-- A path with the default component extension, unless it has a component extension already. -/
def withExtension (path : List Char) : List Char :=
  if PathMode.component.admits path then path else path ++ ".tsx".toList

/-- The place that a specifier names, relative to the project: nothing if it names no project file
or begins at the file system's root. -/
def target? (importer spec : List Char) : Option (List Char) :=
  match after? rootAlias.toList spec with
  | some rest => if isAbsolute rest then none else some (Path.siteRoot.toList ++ '/' :: rest)
  | none =>
    if spec.head? == some '.' then
      if isAbsolute importer then none else some (directory importer ++ '/' :: spec)
    else none

/-- The component path that a specifier leads to from an importing file. -/
def resolve? (importer spec : String) : Option String :=
  (target? importer.toList (trim spec.toList)).bind belowRoot? |>.bind fun path =>
    Path.normalize? .component (String.ofList (withExtension path))

theorem resolve?_canonical {importer spec path : String} (h : resolve? importer spec = some path) :
    Path.isCanonical .component path = true := by
  obtain ⟨p, _, hp⟩ := Option.bind_eq_some_iff.1 h
  obtain ⟨rfl, ha⟩ := Path.normalize?_eq_some.1 hp
  simpa [Path.isCanonical] using ha

end VersionedSite.Imports
