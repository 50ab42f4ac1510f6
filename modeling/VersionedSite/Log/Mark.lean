import VersionedSite.Log.Value
import VersionedSite.Number.Places

/-!
# Marks

A mark in a message says how an argument is told: as what, in which width, and with how many places.
What is told is laid out in parts, so that a sign and the mark of a base stand before the zeros that
fill a number up.

* `length_layOut`: what is laid out has the width that is asked for at least.
-/

namespace VersionedSite.Log

open Text

/-- Why arguments cannot be put in. -/
inductive FillFault where
  /-- There are more marks than arguments. -/
  | tooFew
  /-- There are more arguments than marks. -/
  | tooMany
  /-- A mark names an argument, but arguments have no names. -/
  | unnamed
  /-- There is no argument of a name. -/
  | unknownName
  /-- An argument is not of the kind that its mark needs. -/
  | wrongKind
  /-- A mark is not complete, or there is none like it. -/
  | badMark
  /-- An argument is no number. -/
  | undefined
  /-- A number is too great for what it is needed for. -/
  | tooGreat
  /-- A text would be too long. -/
  | tooLong
  deriving DecidableEq, Repr

/-- How an argument is laid out. -/
structure Mark where
  /-- Whether it stands on the left of its width. -/
  left : Bool := false
  /-- Whether a number without a minus gets a plus. -/
  plus : Bool := false
  /-- Whether a number without a sign gets a blank for one. -/
  blank : Bool := false
  /-- Whether a number is told in full form. -/
  full : Bool := false
  /-- Whether a number is filled up with zeros. -/
  zeros : Bool := false
  width : Option Nat := none
  /-- The places of a number or the most characters of a text. -/
  places : Option Nat := none
  deriving DecidableEq, Repr

/-- The parts of what is told. -/
structure Telling where
  /-- Whether it is a number. -/
  numeric : Bool := true
  negative : Bool := false
  /-- What tells the base of a number. -/
  base : List Char := []
  body : Points

/-- The most characters that a text is filled up to. -/
def fillLimit : Nat := Nat.pow 10 9

namespace Mark

/-- The sign of what is told. -/
def signOf (m : Mark) (t : Telling) : List Char :=
  if !t.numeric then []
  else if t.negative then ['-']
  else if m.plus then ['+']
  else if m.blank then [' ']
  else []

/-- What is told, laid out. -/
def layOut (m : Mark) (t : Telling) : Points :=
  let sign := Points.ofChars (m.signOf t ++ t.base)
  let gap := m.width.getD 0 - (sign.length + t.body.length)
  let blanks := List.replicate gap ' '.toNat
  if m.left then sign ++ t.body ++ blanks
  else if t.numeric && m.zeros then sign ++ List.replicate gap '0'.toNat ++ t.body
  else blanks ++ sign ++ t.body

theorem length_layOut (m : Mark) (t : Telling) : m.width.getD 0 ≤ (m.layOut t).length := by
  unfold layOut
  split
  · simp only [List.length_append, List.length_replicate]
    omega
  · split <;>
    · simp only [List.length_append, List.length_replicate]
      omega

/-! ## Arguments -/

/-- A text, cut off behind the characters that are asked for. -/
def text (m : Mark) (s : Points) : Telling :=
  { numeric := false, body := (m.places.map (s.take ·)).getD s }

/-- A whole number in a base. -/
def whole (m : Mark) (base : Nat) (baseMark : List Char) (n : Int) : Telling :=
  let digits := Nat.toDigits base n.natAbs
  { negative := n < 0
    base := if m.full then baseMark else []
    body := .ofChars (Binary.Decimals.padded (m.places.getD 0) digits) }

/-- A number with places, six unless others are asked for. -/
def real (m : Mark) (style : Binary.Style) (x : Binary) : Telling :=
  { negative := x.isNegative
    body := .ofChars (x.placesText style (m.places.getD 6) m.full) }

/-- What is told, in capitals. -/
def capitals (t : Telling) : Telling :=
  { t with
    base := t.base.map Char.toUpper
    body := t.body.map fun n => if 'a'.toNat ≤ n ∧ n ≤ 'z'.toNat then n - 32 else n }

/-- The whole part of a value. -/
def wholePart (j : Json) : Except FillFault Int :=
  match number? j with
  | some (.int n) => .ok n
  | some (.real .undefined) => .error .undefined
  | some (.real x) =>
    match x.truncate? with
    | some n => .ok n
    | none => .error .tooGreat
  | none => .error .wrongKind

/-- A value that is a whole number. -/
def wholeOnly (j : Json) : Except FillFault Int :=
  match wholeNumber? j with
  | some n => .ok n
  | none => .error .wrongKind

/-- The value as a number of double precision. -/
def realPart (j : Json) : Except FillFault Binary :=
  match number? j with
  | some (.real x) => .ok x
  | some (.int n) =>
    match Binary.ofInt n with
    | .infinite _ => .error .tooGreat
    | x => .ok x
  | none => .error .wrongKind

/-- The only character of a text, or the one with a number. -/
def character (j : Json) : Except FillFault Nat :=
  match j with
  | .str _ | .rough _ =>
    match plainText j with
    | [n] => .ok n
    | _ => .error .wrongKind
  | _ =>
    (wholeOnly j).bind fun n => if n < 0 ∨ 0x10ffff < n then .error .tooGreat else .ok n.toNat

/-- What is told of a value, by the kind of the mark. -/
def telling (m : Mark) (kind : Char) (j : Json) : Except FillFault Telling :=
  match kind with
  | 's' => .ok (m.text (plainText j))
  | 'r' => .ok (m.text (.ofChars (quotedText j)))
  | 'a' => .ok (m.text (.ofChars (asciiText j)))
  | 'c' => (character j).map fun n => { numeric := false, body := [n] }
  | 'd' | 'i' | 'u' => (wholePart j).map (m.whole 10 [])
  | 'o' => (wholeOnly j).map (m.whole 8 ['0', 'o'])
  | 'x' => (wholeOnly j).map (m.whole 16 ['0', 'x'])
  | 'X' => (wholeOnly j).map fun n => capitals (m.whole 16 ['0', 'x'] n)
  | 'e' => (realPart j).map (m.real .scientific)
  | 'E' => (realPart j).map fun x => capitals (m.real .scientific x)
  | 'f' => (realPart j).map (m.real .fixed)
  | 'F' => (realPart j).map fun x => capitals (m.real .fixed x)
  | 'g' => (realPart j).map (m.real .general)
  | 'G' => (realPart j).map fun x => capitals (m.real .general x)
  | _ => .error .badMark

/-- A value as its mark says. -/
def tell (m : Mark) (kind : Char) (j : Json) : Except FillFault Points :=
  (m.telling kind j).bind fun t =>
    if m.width.getD 0 > fillLimit then .error .tooLong else .ok (m.layOut t)

end Mark

end VersionedSite.Log
