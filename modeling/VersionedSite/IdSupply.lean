/-!
# Supplies of identifiers

Identifiers are drawn one after another from a sequence that is given from outside.
-/

namespace VersionedSite

/-- A sequence of identifiers and how many of them have been drawn. -/
structure IdSupply where
  /-- The identifiers, the first one at 1. -/
  sequence : Nat → String
  drawn : Nat := 0

namespace IdSupply

/-- The next identifier. -/
def draw (s : IdSupply) : String × IdSupply :=
  (s.sequence (s.drawn + 1), { s with drawn := s.drawn + 1 })

end IdSupply

end VersionedSite
