import VersionedSite.Text.Points

/-!
# Texts in wide units

Besides bytes of their own a text's characters can be stored in units of two bytes, of which the rarer
characters take two, or of four. A text that begins with ASCII characters gives its encoding away by
where the zero bytes among the first four are.

* `detect_plain`: bytes without zeros are in units of their own.
-/

namespace VersionedSite.Text

/-- How the characters of a text are stored. -/
inductive Encoding where
  | utf8
  /-- In units of two bytes, the greater one first or last. -/
  | utf16 (greatFirst : Bool)
  /-- In units of four bytes, the greatest one first or last. -/
  | utf32 (greatFirst : Bool)
  deriving DecidableEq, Repr

namespace Encoding

/-- The encoding that the first bytes of a text give away. -/
def detect : List UInt8 → Encoding
  | a :: b :: c :: d :: _ =>
    if a = 0 then (if b = 0 then utf32 true else utf16 true)
    else if b = 0 then (if c = 0 ∧ d = 0 then utf32 false else utf16 false)
    else utf8
  | [a, b] => if a = 0 then utf16 true else if b = 0 then utf16 false else utf8
  | _ => utf8

theorem detect_plain {bytes : List UInt8} (h : 0 ∉ bytes) : detect bytes = utf8 := by
  unfold detect
  split <;> simp_all [eq_comm]

/-- The number that bytes are, the greatest one first or last. -/
def unit (greatFirst : Bool) (bytes : List UInt8) : Nat :=
  (if greatFirst then bytes else bytes.reverse).foldl (fun n b => n * 256 + b.toNat) 0

/-- The units of two bytes. -/
def units16? (greatFirst : Bool) : List UInt8 → Option (List Nat)
  | [] => some []
  | a :: b :: rest => (units16? greatFirst rest).map (unit greatFirst [a, b] :: ·)
  | [_] => none

/-- The units of four bytes. -/
def units32? (greatFirst : Bool) : List UInt8 → Option (List Nat)
  | [] => some []
  | a :: b :: c :: d :: rest =>
    (units32? greatFirst rest).map (unit greatFirst [a, b, c, d] :: ·)
  | _ => none

/-- The code points of units of two bytes. -/
def joined : List Nat → Points
  | [] => []
  | [n] => [n]
  | high :: low :: rest =>
    if 0xd800 ≤ high ∧ high ≤ 0xdbff ∧ 0xdc00 ≤ low ∧ low ≤ 0xdfff then
      (0x10000 + (high - 0xd800) * 0x400 + (low - 0xdc00)) :: joined rest
    else high :: joined (low :: rest)

/-- The code points of a text in wide units; nothing if the bytes are none. -/
def decode? (e : Encoding) (bytes : List UInt8) : Option Points :=
  match e with
  | utf8 => none
  | utf16 greatFirst => (units16? greatFirst bytes).map joined
  | utf32 greatFirst =>
    (units32? greatFirst bytes).filter fun points => points.all (· < 0x110000)

end Encoding

end VersionedSite.Text
