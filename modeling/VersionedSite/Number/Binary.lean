/-!
# Binary numbers of double precision

A number is a sign, a whole significand of at most 53 bits and a power of two, or one of the values
beyond all numbers. Every operation is the exact one followed by one rounding: to the nearest such
number, and to the one with the even significand when two are equally near.

* `ofRatio_zero`: zero is exact.
-/

namespace VersionedSite

/-- A number of double precision. -/
inductive Binary where
  /-- The number `± significand * 2 ^ exponent`. -/
  | finite (negative : Bool) (significand : Nat) (exponent : Int)
  /-- A value beyond all numbers. -/
  | infinite (negative : Bool)
  /-- No number. -/
  | undefined
  deriving DecidableEq, Repr

namespace Binary

/-- The exponent of the smallest steps. -/
def leastExponent : Int := -1074

/-- The exponent of the largest steps. -/
def greatestExponent : Int := 971

/-- `num / den` rounded to a whole number, ties to the even one. -/
def roundRatio (num den : Nat) : Nat :=
  let q := num / den
  let r := num % den
  if 2 * r < den then q
  else if 2 * r > den then q + 1
  else if q % 2 = 0 then q else q + 1

/-- The ratio `num / den` divided by `2 ^ e`, again as a ratio. -/
def scaled (num den : Nat) (e : Int) : Nat × Nat :=
  if e ≥ 0 then (num, den * Nat.pow 2 e.toNat) else (num * Nat.pow 2 (-e).toNat, den)

/-- The exponent with which a ratio has a significand of 53 bits, or the least one. -/
def exponentFor (num den : Nat) : Int :=
  let guess : Int := (num.log2 : Int) - den.log2 - 52
  let (n, d) := scaled num den guess
  let exact :=
    if n / d < Nat.pow 2 52 then guess - 1
    else if n / d ≥ Nat.pow 2 53 then guess + 1
    else guess
  max exact leastExponent

/-- The number nearest to a ratio. -/
def ofRatio (negative : Bool) (num den : Nat) : Binary :=
  if num = 0 then .finite negative 0 0
  else
    let e := exponentFor num den
    let (n, d) := scaled num den e
    let m := roundRatio n d
    let (m, e) := if m = Nat.pow 2 53 then (Nat.pow 2 52, e + 1) else (m, e)
    if e > greatestExponent then .infinite negative else .finite negative m e

@[simp] theorem ofRatio_zero (negative : Bool) (den : Nat) :
    ofRatio negative 0 den = .finite negative 0 0 := by
  simp [ofRatio]

/-- The number nearest to a whole number. -/
def ofInt (n : Int) : Binary := ofRatio (n < 0) n.natAbs 1

/-- The number nearest to `± digits * 10 ^ exponent`. Far beyond the largest and the smallest number
the powers are not calculated. -/
def ofDecimal (negative : Bool) (digits : Nat) (exponent : Int) : Binary :=
  if digits = 0 then .finite negative 0 0
  else if exponent > 400 then .infinite negative
  else if exponent + digits.log2 < -400 then .finite negative 0 0
  else if exponent ≥ 0 then ofRatio negative (digits * Nat.pow 10 exponent.toNat) 1
  else ofRatio negative digits (Nat.pow 10 (-exponent).toNat)

/-- The exact value of a finite number as a signed numerator over a power of two. -/
def ratio? : Binary → Option (Int × Nat)
  | finite negative m e =>
    let (n, d) := if e ≥ 0 then (m * Nat.pow 2 e.toNat, 1) else (m, Nat.pow 2 (-e).toNat)
    some (if negative then -(n : Int) else n, d)
  | _ => none

/-- The number nearest to a signed ratio; a zero takes the sign `zeroNegative`. -/
def ofSigned (zeroNegative : Bool) (num : Int) (den : Nat) : Binary :=
  if num = 0 then .finite zeroNegative 0 0 else ofRatio (num < 0) num.natAbs den

/-- Whether a number carries the minus sign. -/
def isNegative : Binary → Bool
  | finite negative _ _ => negative
  | infinite negative => negative
  | undefined => false

/-- A number with the other sign. -/
def neg : Binary → Binary
  | finite negative m e => finite (!negative) m e
  | infinite negative => infinite (!negative)
  | undefined => undefined

/-- The sum of two numbers. -/
def add (x y : Binary) : Binary :=
  match x.ratio?, y.ratio? with
  | some (a, b), some (c, d) => ofSigned (x.isNegative && y.isNegative) (a * d + c * b) (b * d)
  | none, some _ => x
  | some _, none => y
  | none, none => if x = y then x else undefined

/-- The product of two numbers. -/
def mul (x y : Binary) : Binary :=
  let negative := x.isNegative != y.isNegative
  match x.ratio?, y.ratio? with
  | some (a, b), some (c, d) => ofSigned negative (a * c) (b * d)
  | _, _ =>
    match x, y with
    | undefined, _ => undefined
    | _, undefined => undefined
    | _, _ => if x.ratio?.any (·.1 = 0) || y.ratio?.any (·.1 = 0) then undefined else infinite negative

/-- The whole part of a finite number, toward zero. -/
def truncate? (x : Binary) : Option Int := x.ratio?.map fun (a, b) => Int.tdiv a b

/-- Whether one number is less than another; nothing is when one of them is no number. -/
def less (x y : Binary) : Bool :=
  match x.ratio?, y.ratio? with
  | some (a, b), some (c, d) => a * d < c * b
  | some _, none => y = infinite false
  | none, some _ => x = infinite true
  | none, none => x = infinite true && y = infinite false

end Binary

end VersionedSite
