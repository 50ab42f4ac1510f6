import VersionedSite.Json.Value
import VersionedSite.Text.Quoted

/-!
# Texts of values

How values are told in messages: texts are quoted wherever they stand inside other values, and on
request also where they stand by themselves, or with everything escaped that is not ASCII.
-/

namespace VersionedSite.Log

open Text

mutual

/-- The text of a value inside others: texts are quoted. -/
def quotedText : Json → List Char
  | .null => "None".toList
  | .bool b => if b then "True".toList else "False".toList
  | .num n => n.text.toList
  | .str s => quoted s.toList
  | .rough p => quotedPoints p
  | .arr elements => '[' :: (elementTexts elements ++ [']'])
  | .obj members => '\x7b' :: (memberTexts members ++ ['\x7d'])

/-- The texts of elements with commas between them. -/
def elementTexts : List Json → List Char
  | [] => []
  | [e] => quotedText e
  | e :: rest => quotedText e ++ [',', ' '] ++ elementTexts rest

/-- The texts of members with commas between them. -/
def memberTexts : List (String × Json) → List Char
  | [] => []
  | [(k, v)] => quoted k.toList ++ [':', ' '] ++ quotedText v
  | (k, v) :: rest => quoted k.toList ++ [':', ' '] ++ quotedText v ++ [',', ' '] ++ memberTexts rest

end

/-- The text of a value that stands by itself. -/
def plainText : Json → Points
  | .str s => .ofChars s.toList
  | .rough p => p
  | j => .ofChars (quotedText j)

/-- A character, escaped if it is not ASCII. -/
def asciiChar (c : Char) : List Char :=
  if c.toNat < 0x80 then [c]
  else if c.toNat < 0x100 then '\\' :: 'x' :: hex 2 c.toNat
  else if c.toNat < 0x10000 then '\\' :: 'u' :: hex 4 c.toNat
  else '\\' :: 'U' :: hex 8 c.toNat

/-- The text of a value in ASCII, with texts quoted. -/
def asciiText (j : Json) : List Char := (quotedText j).flatMap asciiChar

/-- The whole number that a value is. -/
def wholeNumber? : Json → Option Int
  | .bool b => some (if b then 1 else 0)
  | .num (.int n) => some n
  | _ => none

/-- The number that a value is. -/
def number? : Json → Option Number
  | .num (.real x) => some (.real x)
  | j => (wholeNumber? j).map .int

end VersionedSite.Log
