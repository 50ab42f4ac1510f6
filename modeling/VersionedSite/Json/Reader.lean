import VersionedSite.Json.Value

/-!
# Reading JSON

A text is read as one value with nothing but blanks around it. A text that is no value is refused at
the character where the reading failed. Besides the grammar's numbers a reading may admit the words
for the values beyond them, and it may refuse numbers that are too long and values that stand too deep
in others.
-/

namespace VersionedSite.Json

/-- How freely values are read. -/
structure Dialect where
  /-- Whether the words for the values beyond the numbers are read. -/
  beyond : Bool := false
  /-- The most digits of a whole number, if there is a limit. -/
  digits : Option Nat := none
  /-- In how many others a value may stand, if there is a limit. -/
  depth : Option Nat := none

/-- Why a reading failed. -/
inductive Stop where
  /-- The text goes wrong from here on. -/
  | malformed (rest : List Char)
  | longNumber
  | tooDeep

/-- Why a text is refused. -/
inductive Refusal where
  /-- The text goes wrong behind a number of characters. -/
  | malformed (offset : Nat)
  /-- A whole number has too many digits. -/
  | longNumber
  /-- A value stands in too many others. -/
  | tooDeep
  deriving DecidableEq, Repr

/-- A reading of the head of a text: what was read and the rest, or why the reading failed. -/
abbrev Reading (α : Type) := Except Stop (α × List Char)

/-- The blanks between the parts of a value. -/
def isGap (c : Char) : Bool := c == ' ' || c == '\t' || c == '\n' || c == '\r'

/-- A text without the blanks that it begins with. -/
def skipGaps (s : List Char) : List Char := s.dropWhile isGap

/-! ## Texts -/

/-- The number of four hexadecimal digits at the head of a text that goes on behind them. -/
def unit? : List Char → Option (Nat × List Char)
  | a :: b :: c :: d :: rest => do
    let a ← Text.hexValue? a
    let b ← Text.hexValue? b
    let c ← Text.hexValue? c
    let d ← Text.hexValue? d
    return (((a * 16 + b) * 16 + c) * 16 + d, rest)
  | _ => none

/-- The code point behind the mark of a numeric escape and the rest of the text. `s` begins with the
mark. Two halves that follow each other are one character. -/
def numericEscape (s : List Char) : Reading Nat :=
  match unit? (s.drop 1) with
  | none => .error (.malformed s)
  | some (_, []) => .error (.malformed s)
  | some (n, rest) =>
    match rest with
    | '\\' :: 'u' :: more =>
      if 0xd800 ≤ n && n ≤ 0xdbff && more.length > 4 then
        match unit? more with
        | none => .error (.malformed ('u' :: more))
        | some (low, behind) =>
          if 0xdc00 ≤ low && low ≤ 0xdfff then
            .ok (0x10000 + (n - 0xd800) * 0x400 + (low - 0xdc00), behind)
          else .ok (n, rest)
      else .ok (n, rest)
    | _ => .ok (n, rest)

/-- The character of a simple escape. -/
def simpleEscape? : Char → Option Char
  | '"' => some '"'
  | '\\' => some '\\'
  | '/' => some '/'
  | 'b' => some '\x08'
  | 'f' => some '\x0c'
  | 'n' => some '\n'
  | 'r' => some '\r'
  | 't' => some '\t'
  | _ => none

/-- A text behind its opening quote, where `opened` begins; what was read is in reverse. -/
def stringBody (opened : List Char) :
    (fuel : Nat) → Text.Points → List Char → Reading Text.Points
  | 0, _, _ => .error (.malformed opened)
  | fuel + 1, done, s =>
    match s with
    | [] => .error (.malformed opened)
    | '"' :: rest => .ok (done.reverse, rest)
    | '\\' :: rest =>
      match rest with
      | [] => .error (.malformed opened)
      | 'u' :: more =>
        match numericEscape ('u' :: more) with
        | .error stop => .error stop
        | .ok (n, rest) => stringBody opened fuel (n :: done) rest
      | e :: more =>
        match simpleEscape? e with
        | some c => stringBody opened fuel (c.toNat :: done) more
        | none => .error (.malformed s)
    | c :: rest =>
      if c.toNat < 0x20 then .error (.malformed s)
      else stringBody opened fuel (c.toNat :: done) rest

/-- A text; `s` begins with its opening quote. -/
def string (s : List Char) : Reading Text.Points := stringBody s (s.length + 1) [] (s.drop 1)

/-! ## Numbers -/

/-- The number that decimal digits write. -/
def digitsValue (digits : List Char) : Nat :=
  digits.foldl (fun n c => n * 10 + (c.toNat - '0'.toNat)) 0

/-- The fraction at the head of a text: its digits, if the point has any behind it. -/
def fraction (s : List Char) : List Char × List Char :=
  match s with
  | '.' :: rest =>
    match rest.takeWhile Char.isDigit with
    | [] => ([], s)
    | digits => (digits, rest.dropWhile Char.isDigit)
  | _ => ([], s)

/-- The exponent at the head of a text, if it has digits. -/
def exponent? (s : List Char) : Option (Int × List Char) :=
  match s with
  | [] => none
  | e :: rest =>
    if e == 'e' || e == 'E' then
      let (negative, rest) :=
        match rest with
        | '-' :: more => (true, more)
        | '+' :: more => (false, more)
        | _ => (false, rest)
      match rest.takeWhile Char.isDigit with
      | [] => none
      | digits =>
        let n : Int := digitsValue digits
        some (if negative then -n else n, rest.dropWhile Char.isDigit)
    else none

/-- The whole part of a number at the head of a text: one zero, or digits that begin with another
one. -/
def wholePart? : List Char → Option (List Char × List Char)
  | [] => none
  | c :: rest =>
    if c == '0' then some ([c], rest)
    else if c.isDigit then some (c :: rest.takeWhile Char.isDigit, rest.dropWhile Char.isDigit)
    else none

/-- Whether a text begins with a minus sign, and the text without it. -/
def afterMinus (s : List Char) : Bool × List Char :=
  match s with
  | '-' :: rest => (true, rest)
  | _ => (false, s)

/-- A number; without a fraction and an exponent it is whole. -/
def number (d : Dialect) (s : List Char) : Reading Number :=
  let (negative, body) := afterMinus s
  match wholePart? body with
  | none => .error (.malformed s)
  | some (whole, rest) =>
    let (places, rest) := fraction rest
    let (power, rest, scaled) :=
      match exponent? rest with
      | some (power, rest) => (power, rest, true)
      | none => (0, rest, false)
    if places.isEmpty && !scaled then
      if d.digits.any (whole.length > ·) then .error .longNumber
      else
        let n : Int := digitsValue whole
        .ok (.int (if negative then -n else n), rest)
    else
      .ok (.real (.ofDecimal negative (digitsValue (whole ++ places)) (power - places.length)), rest)

/-! ## Values -/

/-- The words that stand for values, and the further ones for what is beyond the numbers. -/
def words (beyond : Bool) : List (String × Json) :=
  [("null", .null), ("true", .bool true), ("false", .bool false)] ++
  if beyond then
    [("NaN", .num (.real .undefined)), ("Infinity", .num (.real (.infinite false))),
      ("-Infinity", .num (.real (.infinite true)))]
  else []

/-- What follows a word at the head of a text. -/
def afterWord? : List Char → List Char → Option (List Char)
  | [], s => some s
  | _ :: _, [] => none
  | w :: word, c :: s => if w == c then afterWord? word s else none

/-- A value that is written as a word. -/
def word? (beyond : Bool) (s : List Char) : Option (Json × List Char) :=
  (words beyond).findSome? fun (word, value) =>
    (afterWord? word.toList s).map fun rest => (value, rest)

/-- The members of an object with one more. A name with halves of characters, which nobody asks for,
is kept beside its value. -/
def addMember (name : Text.Points) (value : Json) (members : List (String × Json)) :
    List (String × Json) :=
  insertMember (String.ofList name.replaced)
    (if name.hasHalf then .arr [.rough name, value] else value) members

mutual

/-- The value at the head of a text; the reading takes at most `fuel` steps, and values may stand in
each other `room` deep. -/
def value (d : Dialect) : (fuel room : Nat) → List Char → Reading Json
  | 0, _, s => .error (.malformed s)
  | fuel + 1, room, s =>
    match s, room with
    | '"' :: _, _ => (string s).map fun (t, rest) => (ofPoints t, rest)
    | '{' :: _, 0 => .error .tooDeep
    | '[' :: _, 0 => .error .tooDeep
    | '{' :: rest, room + 1 =>
      match skipGaps rest with
      | '}' :: rest => .ok (.obj [], rest)
      | rest => members d fuel room [] rest
    | '[' :: rest, room + 1 =>
      match skipGaps rest with
      | ']' :: rest => .ok (.arr [], rest)
      | rest => elements d fuel room [] rest
    | _, _ =>
      match word? d.beyond s with
      | some found => .ok found
      | none => (number d s).map fun (n, rest) => (.num n, rest)

/-- The members of an object from a name on. -/
def members (d : Dialect) : (fuel room : Nat) → List (String × Json) → List Char → Reading Json
  | 0, _, _, s => .error (.malformed s)
  | fuel + 1, room, done, s =>
    match s with
    | '"' :: _ =>
      match string s with
      | .error stop => .error stop
      | .ok (name, rest) =>
        match skipGaps rest with
        | ':' :: rest =>
          match value d fuel room (skipGaps rest) with
          | .error stop => .error stop
          | .ok (v, rest) =>
            let done := addMember name v done
            match skipGaps rest with
            | '}' :: rest => .ok (.obj done, rest)
            | ',' :: rest => members d fuel room done (skipGaps rest)
            | rest => .error (.malformed rest)
        | rest => .error (.malformed rest)
    | _ => .error (.malformed s)

/-- The elements of an array from one of them on; what was read is in reverse. -/
def elements (d : Dialect) : (fuel room : Nat) → List Json → List Char → Reading Json
  | 0, _, _, s => .error (.malformed s)
  | fuel + 1, room, done, s =>
    match value d fuel room s with
    | .error stop => .error stop
    | .ok (v, rest) =>
      match skipGaps rest with
      | ']' :: rest => .ok (.arr (v :: done).reverse, rest)
      | ',' :: rest => elements d fuel room (v :: done) (skipGaps rest)
      | rest => .error (.malformed rest)

end

/-- The value that a text is, or why the text is refused. -/
def parse (d : Dialect) (s : String) : Except Refusal Json :=
  let text := s.toList
  let refuse := fun rest : List Char => Refusal.malformed (text.length - rest.length)
  if text.head? == some '\ufeff' then .error (.malformed 0)
  else
    match value d (2 * text.length + 2) (d.depth.getD text.length) (skipGaps text) with
    | .error (.malformed rest) => .error (refuse rest)
    | .error .longNumber => .error .longNumber
    | .error .tooDeep => .error .tooDeep
    | .ok (v, rest) =>
      match skipGaps rest with
      | [] => .ok v
      | rest => .error (refuse rest)

end VersionedSite.Json
