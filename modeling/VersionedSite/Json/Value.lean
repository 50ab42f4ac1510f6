import VersionedSite.Number.Basic
import VersionedSite.Text.Hex
import VersionedSite.Text.Points

/-!
# JSON values and their text

Objects keep their members in order; a repeated member keeps its first place and its last value.
Text is written in ASCII alone: everything else is escaped by 16-bit units.

* `member?_insertMember_self`: a member that was put in is found.
* `ofPoints_ofChars`: a text of characters is kept as one.
-/

namespace VersionedSite

/-- A JSON value. -/
inductive Json where
  | null
  | bool (b : Bool)
  | num (n : Number)
  | str (s : String)
  /-- A text that holds halves of characters. -/
  | rough (points : Text.Points)
  | arr (elements : List Json)
  | obj (members : List (String × Json))
  deriving Repr

namespace Json

/-- A whole number. -/
def int (n : Int) : Json := .num (.int n)

/-- A natural number. -/
def nat (n : Nat) : Json := int n

/-- A text that may hold halves of characters. -/
def ofPoints (p : Text.Points) : Json := if p.hasHalf then rough p else str (String.ofList p.replaced)

/-- A list of texts. -/
def strings (l : List String) : Json := .arr (l.map .str)

/-- A value, or null. -/
def option {α : Type} (f : α → Json) : Option α → Json
  | some a => f a
  | none => null

/-- The value of a member of an object's members. -/
def lookup (key : String) : List (String × Json) → Option Json
  | [] => none
  | (k, v) :: rest => if k = key then some v else lookup key rest

/-- The value of a member. -/
def member? (key : String) : Json → Option Json
  | obj members => lookup key members
  | _ => none

/-- Members with one of them set. -/
def insertMember (key : String) (value : Json) : List (String × Json) → List (String × Json)
  | [] => [(key, value)]
  | (k, v) :: rest =>
    if k = key then (k, value) :: rest else (k, v) :: insertMember key value rest

theorem member?_insertMember_self (key : String) (value : Json) (members : List (String × Json)) :
    (obj (insertMember key value members)).member? key = some value := by
  simp only [member?]
  induction members with
  | nil => simp [insertMember, lookup]
  | cons m rest ih =>
    obtain ⟨k, v⟩ := m
    by_cases h : k = key <;> simp [insertMember, lookup, h, ih]

/-! ## Writing -/

/-- One 16-bit unit as an escape. -/
def unitEscape (n : Nat) : List Char := '\\' :: 'u' :: Text.hex 4 n

/-- One character between quotes. -/
def quoteChar (c : Char) : List Char :=
  if c == '"' then ['\\', '"']
  else if c == '\\' then ['\\', '\\']
  else if c == '\n' then ['\\', 'n']
  else if c == '\r' then ['\\', 'r']
  else if c == '\t' then ['\\', 't']
  else if c == '\x08' then ['\\', 'b']
  else if c == '\x0c' then ['\\', 'f']
  else if 0x20 ≤ c.toNat ∧ c.toNat < 0x7f then [c]
  else if c.toNat < 0x10000 then unitEscape c.toNat
  else
    let n := c.toNat - 0x10000
    unitEscape (0xd800 + n / 0x400) ++ unitEscape (0xdc00 + n % 0x400)

/-- A text in quotes. -/
def quoteChars (s : List Char) : List Char := '"' :: (s.flatMap quoteChar ++ ['"'])

/-- A text that may hold halves of characters, in quotes. -/
def quotePoints (p : Text.Points) : List Char :=
  '"' :: (p.flatMap (fun n => if Text.isHalf n then unitEscape n else quoteChar (Char.ofNat n)) ++
    ['"'])

/-- What stands between members and behind a member's name. -/
structure Layout where
  /-- Between elements and between members. -/
  comma : String
  /-- Between a member's name and its value. -/
  colon : String

/-- A blank behind every mark. -/
def spaced : Layout := ⟨", ", ": "⟩

/-- Nothing behind any mark. -/
def compact : Layout := ⟨",", ":"⟩

/-- The text of a number; what is no finite number is a word. -/
def numberText : Number → String
  | .real (.infinite negative) => if negative then "-Infinity" else "Infinity"
  | .real .undefined => "NaN"
  | n => n.text

mutual

/-- The text of a value. -/
def render (l : Layout) : Json → String
  | null => "null"
  | bool b => if b then "true" else "false"
  | num n => numberText n
  | str s => String.ofList (quoteChars s.toList)
  | rough points => String.ofList (quotePoints points)
  | arr elements => "[" ++ String.intercalate l.comma (renderAll l elements) ++ "]"
  | obj members => "\x7b" ++ String.intercalate l.comma (renderMembers l members) ++ "\x7d"

/-- The texts of elements. -/
def renderAll (l : Layout) : List Json → List String
  | [] => []
  | e :: rest => render l e :: renderAll l rest

/-- The texts of members. -/
def renderMembers (l : Layout) : List (String × Json) → List String
  | [] => []
  | (k, v) :: rest =>
    (String.ofList (quoteChars k.toList) ++ l.colon ++ render l v) :: renderMembers l rest

end

/-! ## What is read everywhere -/

/-- Whether a number is one that every reader of JSON knows. -/
def isFinite : Number → Bool
  | .int _ => true
  | .real x => x.ratio?.isSome

mutual

/-- Whether a value is one that every reader of JSON knows: its numbers are numbers and its texts
texts. -/
def isStandard : Json → Bool
  | null | bool _ | str _ => true
  | num n => isFinite n
  | rough _ => false
  | arr elements => allStandard elements
  | obj members => allStandardMembers members

/-- Whether elements are such values. -/
def allStandard : List Json → Bool
  | [] => true
  | e :: rest => isStandard e && allStandard rest

/-- Whether the values of members are such values. -/
def allStandardMembers : List (String × Json) → Bool
  | [] => true
  | (_, v) :: rest => isStandard v && allStandardMembers rest

end

theorem ofPoints_ofChars (s : List Char) : ofPoints (Text.Points.ofChars s) = str (String.ofList s) := by
  simp [ofPoints, Text.Points.hasHalf_ofChars, Text.Points.replaced_ofChars]

end Json

end VersionedSite
