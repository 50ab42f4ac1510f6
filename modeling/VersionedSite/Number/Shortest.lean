import VersionedSite.Number.Binary

/-!
# Shortest decimal text

A number of double precision is written with the fewest decimal digits that read back to it, and of
those the nearest ones. From a ten-thousandth up to below ten quadrillions the point stands among the
digits; other sizes get an exponent of at least two digits.
-/

namespace VersionedSite.Binary

/-- The bounds of the ratios that round to `m * 2 ^ e`, as numerators over one denominator: the lower
bound, the value, the upper bound and the denominator. -/
def neighbourhood (m : Nat) (e : Int) : Nat × Nat × Nat × Nat :=
  let (num, den) :=
    if e ≥ 0 then (4 * m * Nat.pow 2 e.toNat, 4) else (4 * m, 4 * Nat.pow 2 (-e).toNat)
  let step := num / m
  let below := if m = Nat.pow 2 52 ∧ e > leastExponent then step / 4 else step / 2
  (num - below, num, num + step / 2, den)

/-- The decimal exponent `k` with `10 ^ (k - 1) ≤ num / den < 10 ^ k`, searched upwards. -/
def decimalExponent (num den : Nat) : (fuel : Nat) → Int → Int
  | 0, k => k
  | fuel + 1, k =>
    let below := if k ≥ 0 then num < den * Nat.pow 10 k.toNat else num * Nat.pow 10 (-k).toNat < den
    if below then k else decimalExponent num den fuel (k + 1)

/-- The nearest of the numbers of `n` digits that read back, if one does. The value lies below
`10 ^ k` and not below a tenth of it. -/
def digitsOfLength? (m : Nat) (e : Int) (k : Int) (n : Nat) : Option Nat :=
  let (low, value, high, den) := neighbourhood m e
  -- one unit of the last digit is `10 ^ (k - n)`
  let shift := k - n
  let (unit, factor) :=
    if shift ≥ 0 then (den * Nat.pow 10 shift.toNat, 1) else (den, Nat.pow 10 (-shift).toNat)
  let readsBack := fun d : Nat =>
    if m % 2 = 0 then low * factor ≤ d * unit ∧ d * unit ≤ high * factor
    else low * factor < d * unit ∧ d * unit < high * factor
  let down := value * factor / unit
  let up := down + 1
  let downGap := value * factor - down * unit
  let upGap := up * unit - value * factor
  if readsBack down ∧ readsBack up then
    some (if downGap < upGap then down
      else if upGap < downGap then up
      else if down % 2 = 0 then down else up)
  else if readsBack down then some down
  else if readsBack up then some up
  else none

/-- The fewest digits that read back to `m * 2 ^ e`, and how many of them stand before the point.
Digits that were rounded up to the next power of ten have one more place. -/
def shortestDigits (m : Nat) (e : Int) : Nat × Int :=
  let (_, value, _, den) := neighbourhood m e
  let k := decimalExponent value den 700 (-330)
  ((List.range 17).findSome? fun i =>
    (digitsOfLength? m e k (i + 1)).map fun d =>
      (d, if d = Nat.pow 10 (i + 1) then k + 1 else k)).getD (0, k)

/-- The digits of a whole number without the zeros that it ends in. -/
def significant (n : Nat) : List Char :=
  ((Nat.toDigits 10 n).reverse.dropWhile (· == '0')).reverse

/-- A power of ten behind a number, with at least two digits. -/
def powerText (e : Int) : List Char :=
  let size := Nat.toDigits 10 e.natAbs
  'e' :: (if e < 0 then '-' else '+') :: (if size.length < 2 then '0' :: size else size)

/-- Digits with the point behind the first `place` of them, or with an exponent. -/
def layOut (digits : List Char) (place : Int) : List Char :=
  if -4 < place ∧ place ≤ 16 then
    if place ≤ 0 then '0' :: '.' :: (List.replicate (-place).toNat '0' ++ digits)
    else
      let p := place.toNat
      let whole := digits.take p ++ List.replicate (p - digits.length) '0'
      let rest := digits.drop p
      whole ++ '.' :: (if rest.isEmpty then ['0'] else rest)
  else
    let mantissa :=
      match digits with
      | [] => ['0']
      | [d] => [d]
      | d :: rest => d :: '.' :: rest
    mantissa ++ powerText (place - 1)

/-- The shortest text of a number. -/
def text : Binary → String
  | finite negative m e =>
    let sign := if negative then "-" else ""
    if m = 0 then sign ++ "0.0"
    else
      let (d, place) := shortestDigits m e
      sign ++ String.ofList (layOut (significant d) place)
  | infinite negative => if negative then "-inf" else "inf"
  | undefined => "nan"

end VersionedSite.Binary
