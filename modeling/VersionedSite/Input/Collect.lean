import VersionedSite.Input.Reader

/-!
# Reading several values at once

Values are read one after another and everything that is wrong with them is collected on the way, so
that it can be told together. A value that cannot be read is replaced by a default, which is never seen.

* `given_single`: a value that can be read is what is read.
-/

namespace VersionedSite.Input

/-- Reading with all findings collected. -/
abbrev Collect := StateM (List Finding)

/-- A reader of a value at a place. -/
abbrev PlacedReader (α : Type) := List Step → Json → Except (List Finding) α

/-- A reader of a single value. -/
def single {α : Type} (read : Json → Except Fault α) : PlacedReader α := fun place j =>
  (read j).mapError fun fault => [{ place, fault }]

/-- A reader of a value that can be null. -/
def nullable {α : Type} (read : Json → Except Fault α) : Json → Except Fault (Option α)
  | .null => .ok none
  | j => (read j).map some

namespace Collect

/-- A value that is there. -/
def given {α : Type} (place : List Step) (read : PlacedReader α) (default : α) (j : Json) :
    Collect α := do
  match read place j with
  | .ok a => return a
  | .error found =>
    modify (· ++ found)
    return default

/-- A value that need not be there. -/
def optional {α : Type} (place : List Step) (read : PlacedReader α) (default : α) :
    Option Json → Collect α
  | none => return default
  | some j => given place read default j

/-- A value that has to be there. -/
def required {α : Type} (place : List Step) (read : PlacedReader α) (default : α) :
    Option Json → Collect α
  | none => do
    modify (· ++ [{ place, fault := .missing }])
    return default
  | some j => given place read default j

/-- What was read, or everything that is wrong. -/
def finish {α : Type} (c : Collect α) : Except (List Finding) α :=
  match c.run [] with
  | (a, []) => .ok a
  | (_, found) => .error found

theorem given_single {α : Type} (place : List Step) {read : Json → Except Fault α} (default : α)
    {j : Json} {a : α} (h : read j = .ok a) : given place (single read) default j = pure a := by
  have hs : single read place j = .ok a := by
    rw [single, h]
    rfl
  rw [given, hs]

end Collect

end VersionedSite.Input
