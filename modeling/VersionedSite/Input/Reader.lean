import VersionedSite.Json.Reader
import VersionedSite.Text.Blank

/-!
# Reading values that come from outside

Values of requests and of the configuration are read leniently: a whole number may come as a text or as
a number without a fraction, a truth value as one of several words. What cannot be read is a finding:
what is wrong, and where.
-/

namespace VersionedSite.Input

open Text

/-- What is wrong with a value. -/
inductive Fault where
  | missing
  | textKind
  | textTooLong
  | textHalves
  | intText
  | intTextSize
  | intKind
  | intFraction
  | notFinite
  | boolText
  | boolKind
  | realText
  | realKind
  | listKind
  | pathKind
  | notListed
  | unknownField
  | objectKind
  | jsonText
  deriving DecidableEq, Repr

/-- The name under which a fault is reported. -/
def Fault.name : Fault → String
  | missing => "missing"
  | textKind => "string_type"
  | textTooLong => "string_too_long"
  | textHalves => "string_unicode"
  | intText => "int_parsing"
  | intTextSize => "int_parsing_size"
  | intKind => "int_type"
  | intFraction => "int_from_float"
  | notFinite => "finite_number"
  | boolText => "bool_parsing"
  | boolKind => "bool_type"
  | realText => "float_parsing"
  | realKind => "float_type"
  | listKind => "list_type"
  | pathKind => "path_type"
  | notListed => "literal_error"
  | unknownField => "extra_forbidden"
  | objectKind => "model_attributes_type"
  | jsonText => "json_invalid"

/-- One step on the way to a value. -/
inductive Step where
  | member (name : String)
  | element (index : Nat)
  deriving DecidableEq, Repr

/-- What is wrong and where. -/
structure Finding where
  place : List Step
  fault : Fault
  deriving DecidableEq, Repr

/-! ## Whole numbers -/

/-- The most digits of a whole number that is read from a text. -/
def intDigitLimit : Nat := 4300

/-- The number that a text of digits is, with or without a minus; zeros do not lead. Too many digits
are refused as such, whatever stands behind them. -/
def plainInt (s : List Char) : Except Fault Int :=
  let (negative, body) :=
    match s with
    | '-' :: rest => (true, rest)
    | _ => (false, s)
  match Json.wholePart? body with
  | none => .error .intText
  | some (digits, rest) =>
    if digits.length > intDigitLimit then .error .intTextSize
    else if rest.isEmpty then
      let n : Int := Json.digitsValue digits
      .ok (if negative then -n else n)
    else .error .intText

/-- A text without the zeros, and the underscores among them, that lead; `last` is the character
before it. -/
def dropZeros (last : Char) : List Char → Option (List Char)
  | [] => some [last]
  | c :: rest =>
    if c == '0' || c == '_' then dropZeros c rest
    else if c.isDigit || c == '-' then some (c :: rest)
    else if c == '.' then some (last :: c :: rest)
    else none

/-- A text without the zeros that lead, if it begins with a digit. -/
def withoutZeros : List Char → Option (List Char)
  | [] => none
  | c :: rest =>
    if c == '0' then dropZeros c rest else if c.isDigit then some (c :: rest) else none

/-- A text without a fraction of zeros; a point alone is no fraction. -/
def withoutFraction (s : List Char) : List Char :=
  match s.dropWhile (· ≠ '.') with
  | _ :: places =>
    if !places.isEmpty && places.all (· == '0') then s.takeWhile (· ≠ '.') else s
  | [] => s

/-- Whether two underscores stand side by side. -/
def hasDoubleUnderscore : List Char → Bool
  | '_' :: '_' :: _ => true
  | _ :: rest => hasDoubleUnderscore rest
  | [] => false

/-- A text without underscores, if they stand singly between other characters. -/
def withoutUnderscores (s : List Char) : List Char :=
  if s.head? == some '_' || s.getLast? == some '_' || hasDoubleUnderscore s then s
  else s.filter (· ≠ '_')

/-- Whether a character may stand around a number. -/
def isMargin (c : Char) : Bool := isBlank c && !(0x1c ≤ c.toNat && c.toNat ≤ 0x1f)

/-- A text without the characters that may stand around a number. -/
def withoutMargins (s : List Char) : List Char :=
  ((s.dropWhile isMargin).reverse.dropWhile isMargin).reverse

/-- The plain form of a number that is written at length: with blanks around, a sign, zeros that
lead, a fraction of zeros, or underscores. -/
def plainForm? (s : List Char) : Option (List Char) :=
  let s := withoutMargins s
  let (negative, body) :=
    match s with
    | '-' :: rest => (true, rest)
    | '+' :: rest => (false, rest)
    | _ => (false, s)
  (withoutZeros body).map fun body =>
    let digits := withoutUnderscores (withoutFraction body)
    if negative then '-' :: digits else digits

/-- The whole number that a text is. -/
def intOfText (s : List Char) : Except Fault Int :=
  match plainInt s with
  | .error .intText => ((plainForm? s).map plainInt).getD (.error .intText)
  | outcome => outcome

/-- The whole number that a number of double precision is. -/
def intOfReal (x : Binary) : Except Fault Int :=
  match x.ratio? with
  | none => .error .notFinite
  | some (a, b) =>
    if a % b ≠ 0 then .error .intFraction
    else if (a / b).natAbs ≥ Nat.pow 2 63 then .error .intTextSize
    else .ok (a / b)

/-- A whole number. -/
def readInt : Json → Except Fault Int
  | .num (.int n) => .ok n
  | .num (.real x) => intOfReal x
  | .bool b => .ok (if b then 1 else 0)
  | .str s => intOfText s.toList
  | _ => .error .intKind

/-! ## Truth values -/

/-- The words for true. -/
def trueWords : List String := ["1", "on", "t", "true", "y", "yes"]

/-- The words for false. -/
def falseWords : List String := ["0", "off", "f", "false", "n", "no"]

/-- The truth value that a word is, in any case. -/
def boolOfText (s : String) : Except Fault Bool :=
  let word := String.ofList (s.toList.map Char.toLower)
  if trueWords.contains word then .ok true
  else if falseWords.contains word then .ok false
  else .error .boolText

/-- The truth value that a number is. One that does not fit into 64 bits is not even of a kind that can
be one. -/
def boolOfInt (n : Int) : Except Fault Bool :=
  if n = 1 then .ok true
  else if n = 0 then .ok false
  else if -Int.pow 2 63 ≤ n ∧ n < Int.pow 2 63 then .error .boolText
  else .error .boolKind

/-- A truth value. -/
def readBool : Json → Except Fault Bool
  | .bool b => .ok b
  | .str s => boolOfText s
  | .num (.int n) => boolOfInt n
  | .num (.real x) =>
    match intOfReal x with
    | .ok n => boolOfInt n
    | .error _ => .error .boolKind
  | _ => .error .boolKind

/-! ## Texts, numbers and lists -/

/-- A text. -/
def readText : Json → Except Fault String
  | .str s => .ok s
  | .rough _ => .error .textHalves
  | _ => .error .textKind

/-- A text that may hold halves of characters. -/
def readPoints : Json → Except Fault Text.Points
  | .str s => .ok (.ofChars s.toList)
  | .rough p => .ok p
  | _ => .error .textKind

/-- A text of a limited number of characters. -/
def readShortText (limit : Nat) (j : Json) : Except Fault String :=
  (readText j).bind fun s => if s.length > limit then .error .textTooLong else .ok s

/-- A text that is one of some. -/
def readListed {α : Type} (named : String → Option α) : Json → Except Fault α
  | .str s =>
    match named s with
    | some a => .ok a
    | none => .error .notListed
  | _ => .error .notListed

/-- The number of double precision that a text is: a sign, digits with a point in or around them,
and an exponent. -/
def realOfText? (s : List Char) : Option Binary :=
  let (negative, body) :=
    match s with
    | '-' :: rest => (true, rest)
    | '+' :: rest => (false, rest)
    | _ => (false, s)
  let word := String.ofList (body.map Char.toLower)
  if word = "inf" || word = "infinity" then some (.infinite negative)
  else if word = "nan" then some .undefined
  else
    let whole := body.takeWhile Char.isDigit
    let (places, rest) :=
      match body.dropWhile Char.isDigit with
      | '.' :: rest => (rest.takeWhile Char.isDigit, rest.dropWhile Char.isDigit)
      | rest => ([], rest)
    if whole.isEmpty && places.isEmpty then none
    else
      match rest, Json.exponent? rest with
      | [], _ =>
        some (.ofDecimal negative (Json.digitsValue (whole ++ places)) (-(places.length : Int)))
      | _ :: _, some (power, []) =>
        some (.ofDecimal negative (Json.digitsValue (whole ++ places)) (power - places.length))
      | _, _ => none

/-- The number of double precision that a text is; either blanks stand around it or underscores
between its digits. -/
def realOfMarked? (s : List Char) : Option Binary :=
  (realOfText? (withoutMargins s)).or (realOfText? (withoutUnderscores s))

/-- A number of double precision. A whole number that is too large for one is of another kind. -/
def readReal : Json → Except Fault Binary
  | .num (.real x) => .ok x
  | .num (.int n) =>
    match Binary.ofInt n with
    | .infinite _ => .error .realKind
    | x => .ok x
  | .bool b => .ok (.ofInt (if b then 1 else 0))
  | .str s =>
    match realOfMarked? s.toList with
    | some x => .ok x
    | none => .error .realText
  | _ => .error .realKind

/-- The elements of a list, or what is wrong with each that cannot be read. -/
def readElements {α : Type} (read : Json → Except Fault α) (place : List Step) :
    Nat → List Json → Except (List Finding) (List α)
  | _, [] => .ok []
  | i, j :: rest =>
    match read j, readElements read place (i + 1) rest with
    | .ok a, .ok as => .ok (a :: as)
    | .ok _, .error found => .error found
    | .error fault, .ok _ => .error [{ place := place ++ [.element i], fault }]
    | .error fault, .error found => .error ({ place := place ++ [.element i], fault } :: found)

/-- A list. -/
def readList {α : Type} (read : Json → Except Fault α) (place : List Step) :
    Json → Except (List Finding) (List α)
  | .arr elements => readElements read place 0 elements
  | _ => .error [{ place, fault := .listKind }]

/-! ## Laws -/

theorem readShortText_str {s : String} {limit : Nat} (h : s.length ≤ limit) :
    readShortText limit (.str s) = .ok s := by
  have h' : ¬ s.length > limit := by omega
  simp [readShortText, readText, Except.bind, h']

end VersionedSite.Input
