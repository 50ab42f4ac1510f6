/-!
# Paths of the file system

A path of the file system is kept in plain form: without doubled slashes and without steps that stay
where they are. Steps upwards are kept, since they can lead through links.
-/

namespace VersionedSite.Path

/-- A path without doubled slashes and empty steps. Two slashes at the begin, and no more, are
kept. -/
def plain (raw : String) : String :=
  let steps := (raw.splitOn "/").filter fun s => s ≠ "" && s ≠ "."
  let lead :=
    if raw.startsWith "//" && !raw.startsWith "///" then "//"
    else if raw.startsWith "/" then "/"
    else ""
  let path := lead ++ "/".intercalate steps
  if path = "" then "." else path

/-- A plain path inside another. -/
def inside (outer inner : String) : String :=
  if outer = "." then inner else if outer.endsWith "/" then outer ++ inner else outer ++ "/" ++ inner

end VersionedSite.Path
