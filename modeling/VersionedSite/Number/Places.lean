import VersionedSite.Number.Shortest

/-!
# Decimal text with given places

A number of double precision is written with as many digits as are asked for: so many behind the point,
with or without a power of ten, or so many in all. The digits are those of the exact value, rounded
once, a half to the even neighbour.

* `length_places_fixed`, `length_places_scientific`: there are as many places as are asked for.
-/

namespace VersionedSite.Binary

/-- A number in decimal digits, without its sign. -/
structure Decimals where
  whole : List Char
  /-- The digits behind the point. -/
  places : List Char
  /-- The power of ten that it is multiplied by, if one is written. -/
  power : Option Int := none
  deriving DecidableEq, Repr

namespace Decimals

/-- The text of a number; where nothing is behind the point it can be left out. -/
def text (d : Decimals) (point : Bool) : List Char :=
  d.whole ++ (if d.places.isEmpty && !point then [] else '.' :: d.places) ++
    (d.power.map powerText).getD []

/-- A number without the zeros that its places end in. -/
def withoutZeros (d : Decimals) : Decimals :=
  { d with places := (d.places.reverse.dropWhile (· == '0')).reverse }

/-- Digits in a number of places at least. -/
def padded (count : Nat) (digits : List Char) : List Char :=
  List.replicate (count - digits.length) '0' ++ digits

theorem le_length_padded (count : Nat) (digits : List Char) :
    count ≤ (padded count digits).length := by
  simp only [padded, List.length_append, List.length_replicate]
  omega

/-- The ratio `num / den` with some places. -/
def fixed (num den places : Nat) : Decimals :=
  let digits :=
    padded (places + 1) (Nat.toDigits 10 (roundRatio (num * Nat.pow 10 places) den))
  { whole := digits.take (digits.length - places), places := digits.drop (digits.length - places) }

theorem length_places_fixed (num den places : Nat) : (fixed num den places).places.length = places := by
  have h := le_length_padded (places + 1)
    (Nat.toDigits 10 (roundRatio (num * Nat.pow 10 places) den))
  simp only [fixed, List.length_drop]
  omega

/-- The ratio `num / den` in units of which it has `count` digits, and the power of ten of the first of
them. The ratio is not zero. -/
def inUnits (num den count : Nat) : Nat × Int :=
  let k := decimalExponent num den 700 (-330)
  let shift := k - count
  let n :=
    if shift ≥ 0 then roundRatio num (den * Nat.pow 10 shift.toNat)
    else roundRatio (num * Nat.pow 10 (-shift).toNat) den
  if n = Nat.pow 10 count then (n / 10, k) else (n, k - 1)

/-- The first digits of the ratio `num / den`, and the power of ten of the first of them. -/
def leading (num den count : Nat) : List Char × Int :=
  if num = 0 then (List.replicate count '0', 0)
  else
    let units := inUnits num den count
    ((padded count (Nat.toDigits 10 units.1)).take count, units.2)

theorem length_leading (num den count : Nat) : (leading num den count).1.length = count := by
  unfold leading
  split
  · simp
  · simp only [List.length_take]
    exact Nat.min_eq_left (le_length_padded _ _)

/-- The ratio `num / den` as one digit and some places times a power of ten. -/
def scientific (num den places : Nat) : Decimals :=
  let (digits, e) := leading num den (places + 1)
  { whole := digits.take 1, places := digits.drop 1, power := some e }

theorem length_places_scientific (num den places : Nat) :
    (scientific num den places).places.length = places := by
  have h := length_leading num den (places + 1)
  simp only [scientific, List.length_drop]
  omega

/-- The ratio `num / den` with some digits in all, times a power of ten where it is very small or has
more whole digits than that. -/
def general (num den count : Nat) : Decimals :=
  let (digits, e) := leading num den count
  if e < -4 ∨ e ≥ count then
    { whole := digits.take 1, places := digits.drop 1, power := some e }
  else if e < 0 then { whole := ['0'], places := List.replicate (-e - 1).toNat '0' ++ digits }
  else { whole := digits.take (e + 1).toNat, places := digits.drop (e + 1).toNat }

end Decimals

/-- How a number is written in decimal digits. -/
inductive Style where
  | fixed
  | scientific
  | general
  deriving DecidableEq, Repr

/-- The text of a number without its sign. In full form the point and all digits asked for are kept. -/
def placesText (x : Binary) (style : Style) (places : Nat) (full : Bool) : List Char :=
  match x.ratio? with
  | some (num, den) =>
    match style with
    | .fixed => (Decimals.fixed num.natAbs den places).text full
    | .scientific => (Decimals.scientific num.natAbs den places).text full
    | .general =>
      let d := Decimals.general num.natAbs den (max places 1)
      if full then d.text true else d.withoutZeros.text false
  | none => if x = undefined then "nan".toList else "inf".toList

end VersionedSite.Binary
