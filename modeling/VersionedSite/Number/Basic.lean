import VersionedSite.Number.Shortest

/-!
# Numbers

A number is either whole, of any size, or of double precision. Whole numbers are calculated with
exactly; as soon as a number of double precision takes part, the result is one. Comparisons are exact
throughout.

* `less_int`, `same_int`: whole numbers compare as such.
-/

namespace VersionedSite

/-- A number, whole or of double precision. -/
inductive Number where
  | int (n : Int)
  | real (x : Binary)
  deriving DecidableEq, Repr

namespace Number

/-- A number in double precision. -/
def toBinary : Number → Binary
  | int n => .ofInt n
  | real x => x

/-- The sum of two numbers. -/
def add : Number → Number → Number
  | int a, int b => int (a + b)
  | a, b => real (a.toBinary.add b.toBinary)

/-- The difference of two numbers. -/
def sub : Number → Number → Number
  | int a, int b => int (a - b)
  | a, b => real (a.toBinary.add b.toBinary.neg)

/-- The product of two numbers. -/
def mul : Number → Number → Number
  | int a, int b => int (a * b)
  | a, b => real (a.toBinary.mul b.toBinary)

/-- The whole part of a number, toward zero; zero for what has none. -/
def whole : Number → Int
  | int n => n
  | real x => x.truncate?.getD 0

/-- The exact value of a number as a signed ratio. -/
def ratio? : Number → Option (Int × Nat)
  | int n => some (n, 1)
  | real x => x.ratio?

/-- Whether one number is less than another. -/
def less (x y : Number) : Bool :=
  match x.ratio?, y.ratio? with
  | some (a, b), some (c, d) => a * d < c * b
  | _, _ => x.toBinary.less y.toBinary

/-- Whether two numbers have the same value. -/
def same (x y : Number) : Bool :=
  match x.ratio?, y.ratio? with
  | some (a, b), some (c, d) => a * d == c * b
  | none, none => x == y && x != real .undefined
  | _, _ => false

/-- Whether one number is at most another. -/
def atMost (x y : Number) : Bool := x.less y || x.same y

@[simp] theorem less_int (a b : Int) : less (int a) (int b) = decide (a < b) := by
  simp [less, ratio?]

@[simp] theorem same_int (a b : Int) : same (int a) (int b) = (a == b) := by
  simp [same, ratio?]

/-- The text of a number. -/
def text : Number → String
  | int n => toString n
  | real x => x.text

end Number

end VersionedSite
