import VersionedSite.Text.Percent
import VersionedSite.Text.Search

/-!
# Addresses

An address is a path and a query, both of which may be written in escapes.

* `lookup_last`: of a repeated name the last value counts.
-/

namespace VersionedSite.Http

open Text

/-- Where a request goes. -/
structure Address where
  /-- The decoded path. -/
  path : String
  /-- The decoded names and values, in order. -/
  query : List (String × String)
  deriving DecidableEq, Repr

namespace Address

/-- A name or value of a query; a plus stands for a blank. -/
def decodeTerm (raw : List Char) : String :=
  String.ofList (Percent.decode (raw.map fun c => if c == '+' then ' ' else c))

/-- A name and its value. -/
def pair (raw : List Char) : String × String :=
  (decodeTerm (raw.takeWhile (· ≠ '=')), decodeTerm ((raw.dropWhile (· ≠ '=')).drop 1))

/-- The names and values of a query. -/
def pairs (raw : List Char) : List (String × String) :=
  ((raw.splitOn '&').filter (· ≠ [])).map pair

/-- The address that a text is. -/
def ofText (text : String) : Address where
  path := String.ofList (Percent.decode (text.toList.takeWhile (· ≠ '?')))
  query := pairs ((text.toList.dropWhile (· ≠ '?')).drop 1)

/-- The value of a name. -/
def lookup (a : Address) (name : String) : Option String :=
  (a.query.reverse.find? fun e => e.1 = name).map Prod.snd

/-! ## Laws -/

theorem lookup_last (path : String) (query : List (String × String)) (name value : String) :
    (Address.mk path (query ++ [(name, value)])).lookup name = some value := by
  simp [lookup]

end Address

end VersionedSite.Http
