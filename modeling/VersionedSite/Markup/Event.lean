import VersionedSite.Markup.Tag
import VersionedSite.Text.Hex
import VersionedSite.Text.Quoted

/-!
# Markup events

A lenient reading of markup as a row of events: elements begin and end, texts stand between them, a
document type is declared. Comments, instructions and other declarations leave no event. Of a text
only its visibility is told: whether it holds anything but blanks.

The reading goes over the text twice. The first pass stops at the first construct whose end is
missing; the second goes on from there and takes such constructs for text.
-/

namespace VersionedSite.Markup

open Text

/-- What a reading meets. -/
inductive Event where
  /-- An element begins; `closed` if its tag ends in a slash. -/
  | opening (name : List Char) (closed : Bool)
  /-- An element ends. -/
  | closing (name : List Char)
  /-- A text, `visible` if it holds anything but blanks. -/
  | text (visible : Bool)
  /-- A document type declaration. -/
  | doctype
  deriving DecidableEq, Repr

/-- Why a text cannot be read. -/
inductive Unreadable where
  /-- A marked section with a status keyword that does not exist. -/
  | sectionKeyword (word : List Char)
  /-- A marked section without a keyword; `near` is where it begins. -/
  | sectionName (near : List Char)
  /-- A decimal character reference of too many digits. -/
  | referenceDigits (count : Nat)
  deriving DecidableEq, Repr

namespace Unreadable

/-- The report of a reading that was given up. -/
def rejection (cause : String) : String :=
  "The markup you provided was rejected by the parser. Trying a different parser or a different " ++
  "encoding may help.\n\nOriginal exception(s) from parser:\n AssertionError: " ++ cause

/-- The report of an unreadable text. -/
def message : Unreadable → String
  | sectionKeyword word =>
    rejection ("unknown status keyword " ++ String.ofList (quoted word) ++ " in marked section")
  | sectionName near => rejection ("expected name token at " ++ String.ofList (quoted near))
  | referenceDigits count =>
    s!"Exceeds the limit (4300 digits) for integer string conversion: value has {count} digits; use " ++
    "sys.set_int_max_str_digits() to increase the limit"

end Unreadable

/-- The event of a text: it tells whether the text holds anything but blanks. -/
def Event.ofText (s : List Char) : Event := .text !s.all isBlank

/-! ## What stands at the head of a text -/

/-- What a reading finds at the head of a text. -/
inductive Found where
  /-- A construct with its events, and the text behind it. -/
  | construct (events : List Event) (rest : List Char)
  /-- The begin tag of an element of raw text, and the text behind it. -/
  | rawText (name rest : List Char)
  /-- A construct whose end is missing. -/
  | unfinished
  /-- A text after which the pass stops. -/
  | halt (events : List Event) (rest : List Char)
  /-- A construct that cannot be read. -/
  | unreadable (why : Unreadable)

/-- What stands behind the first `mark`, if it stands anywhere. -/
def behind? (mark s : List Char) : Option (List Char) := (breakOn? mark s).map Prod.snd

/-- A construct without events up to where the text goes on. -/
def Found.silent : Option (List Char) → Found
  | some rest => .construct [] rest
  | none => .unfinished

/-! ### Tags -/

/-- Whether a character can go on the name of an element. -/
def goesOnName (c : Char) : Bool :=
  !(c == '\t' || c == '\n' || c == '\r' || c == '\x0c' || c == ' ' || c == '/' || c == '>' ||
    c == '\x00')

/-- A text without leading blanks and without slashes that do not close the tag, together with the
character before it. -/
def skipGap (before : Char) : List Char → Char × List Char
  | [] => (before, [])
  | c :: s =>
    if isBlank c || (c == '/' && s.head? != some '>') then skipGap c s else (before, c :: s)

/-- Whether an attribute may begin behind a character. -/
def separates (c : Char) : Bool := c == '\'' || c == '"' || c == '/' || isBlank c

/-- Whether a character can go on an unquoted value. -/
def goesOnValue (c : Char) : Bool := c != '>' && !isBlank c

/-- The value of an attribute, and where the text goes on. -/
structure AttributeValue where
  value : List Char
  /-- The character before what follows. -/
  before : Char
  rest : List Char

/-- A bare value. -/
def bareValue (before : Char) (s : List Char) : AttributeValue where
  value := s.takeWhile goesOnValue
  before := (s.takeWhile goesOnValue).getLast?.getD before
  rest := s.dropWhile goesOnValue

/-- A value behind the equals sign before `s`. A quote that is not closed begins no value: behind
blanks the value is empty then, and behind a second equals sign it begins with that sign. -/
def valueBehind? (doubled : Bool) (s : List Char) : Option AttributeValue :=
  let text := trimStart s
  let before := (s.takeWhile isBlank).getLast?.getD '='
  match text with
  | q :: inner =>
    if q == '\'' || q == '"' then
      match breakOn? [q] inner with
      | some (value, rest) => some ⟨value, q, rest⟩
      | none =>
        if isBlank before then some ⟨[], before, text⟩
        else if doubled then some (bareValue '=' ('=' :: text))
        else none
    else some (bareValue before text)
  | [] => some ⟨[], before, []⟩

/-- The value of an attribute whose name stands before `s`, if it has one. -/
def value? (s : List Char) : Option AttributeValue :=
  match trimStart s with
  | '=' :: rest =>
    valueBehind? (rest.head? == some '=') (rest.dropWhile (· == '='))
  | _ => none

/-- The values of the attributes at the head of a text, at most `fuel` of them, and the text behind
them. -/
def attributes : (fuel : Nat) → (before : Char) → List Char → List (List Char) × List Char
  | 0, _, s => ([], s)
  | _ + 1, _, [] => ([], [])
  | fuel + 1, before, c :: s =>
    if separates before && !isBlank c && c != '/' && c != '>' then
      let goesOn := fun d : Char => !(isBlank d || d == '/' || d == '=' || d == '>')
      let last := (s.takeWhile goesOn).getLast?.getD c
      let rest := s.dropWhile goesOn
      let found := (value? rest).getD ⟨[], last, rest⟩
      let (before, rest) := skipGap found.before found.rest
      let (values, rest) := attributes fuel before rest
      (found.value :: values, rest)
    else ([], c :: s)

/-- How many digits a decimal reference may have. -/
def digitLimit : Nat := 4300

/-- The number of digits of the first decimal reference in a text that has too many. -/
def overlong? : List Char → Option Nat
  | '&' :: '#' :: s =>
    let count := (s.takeWhile Char.isDigit).length
    if count > digitLimit then some count else overlong? s
  | _ :: s => overlong? s
  | [] => none

/-- What a tag with the given values is found to be: they are read once its end is there. -/
def Found.withValues (values : List (List Char)) : Found → Found
  | .unfinished => .unfinished
  | found =>
    match values.findSome? overlong? with
    | some count => .unreadable (.referenceDigits count)
    | none => found

/-- The elements whose content is not read for markup. -/
def opaqueNames : List (List Char) := ["script".toList, "style".toList]

/-- A begin tag; `s` begins with the letter behind its mark. -/
def beginTag (s : List Char) : Found :=
  let written := s.takeWhile goesOnName
  let name := lower written
  let (before, rest) := skipGap (written.getLast?.getD '<') (s.dropWhile goesOnName)
  let (values, rest) := attributes rest.length before rest
  .withValues values <|
    match rest with
    | [] => .unfinished
    | '>' :: rest =>
      if opaqueNames.contains name then .rawText name rest
      else .construct [.opening name false] rest
    | '/' :: '>' :: rest => .construct [.opening name true] rest
    | c :: rest =>
      if c == '=' || c == '/' || c.isAlpha then .unfinished
      else .construct [.text true] (c :: rest)

/-- The name of an end tag that is written in full, and the text behind the tag. -/
def plainEndTag? (s : List Char) : Option (List Char × List Char) :=
  match trimStart s with
  | c :: rest =>
    if c.isAlpha then
      let goesOn := fun d : Char => d.isAlphanum || d == '-' || d == '.' || d == ':' || d == '_'
      (after? ['>'] (trimStart (rest.dropWhile goesOn))).map fun behind =>
        (lower (c :: rest.takeWhile goesOn), behind)
    else none
  | [] => none

/-- An end tag; `s` stands behind its mark. -/
def endTagOf (s : List Char) : Found :=
  match behind? ['>'] s with
  | none => .unfinished
  | some rest =>
    match plainEndTag? s with
    | some (name, rest) => .construct [.closing name] rest
    | none =>
      if s.head?.any Char.isAlpha then .construct [.closing (lower (s.takeWhile goesOnName))] rest
      else .construct [] rest

/-! ### Comments and declarations -/

/-- What stands behind the first `--`, any blanks, and `>`. -/
def behindComment? (s : List Char) : Option (List Char) :=
  skipTo? (fun s => (after? "--".toList s).bind fun rest =>
    (after? ['>'] (trimStart rest)).map fun rest => ((), rest)) s

/-- A marked section ends at brackets and `>`, with any blanks between them. -/
def sectionEnd? (brackets : Nat) : Recogniser Unit := fun s =>
  match brackets with
  | 0 => (after? ['>'] s).map fun rest => ((), rest)
  | n + 1 => (after? [']'] s).bind fun rest => sectionEnd? n (trimStart rest)

/-- The content of a marked section and the text behind it. -/
def sectionContent? (brackets : Nat) : List Char → Option (List Char × List Char)
  | [] => none
  | c :: s =>
    match sectionEnd? brackets (c :: s) with
    | some (_, rest) => some ([], rest)
    | none => (sectionContent? brackets s).map fun (content, rest) => (c :: content, rest)

/-- The events of a marked section: character data is a text. -/
def sectionEvents (content : List Char) : List Event :=
  match afterCaseless? "cdata[".toList content with
  | some data => [.ofText data]
  | none => []

/-- A marked section; `s` stands behind its mark. -/
def markedSection (s : List Char) : Found :=
  match s with
  | [] => .unfinished
  | c :: rest =>
    if c.isAlpha then
      let goesOn := fun d : Char => d.isAlphanum || d == '-' || d == '_' || d == '.'
      let name := c :: rest.takeWhile goesOn
      let gap := (rest.dropWhile goesOn).takeWhile isBlank
      if (rest.dropWhile goesOn).dropWhile isBlank == [] then .unfinished
      else
        let word := name.map Char.toLower
        let finish := fun brackets =>
          match sectionContent? brackets s with
          | some (content, rest) => Found.construct (sectionEvents content) rest
          | none => .unfinished
        if ["temp", "cdata", "ignore", "include", "rcdata"].any (·.toList == word) then finish 2
        else if ["if", "else", "endif"].any (·.toList == word) then finish 1
        else .unreadable (.sectionKeyword (name ++ gap))
    else .unreadable (.sectionName ("<![".toList ++ s |>.take 20))

/-- A declaration; `s` stands behind its mark. -/
def declaration (s : List Char) : Found :=
  match s with
  | '[' :: rest => markedSection rest
  | _ =>
    match afterCaseless? "doctype".toList s with
    | some rest =>
      match behind? ['>'] rest with
      | some rest => .construct [.doctype] rest
      | none => .unfinished
    | none => .silent (behind? ['>'] s)

/-! ### Character references -/

/-- The named characters that are blank. -/
def blankNames : List (List Char) :=
  ["MediumSpace", "NewLine", "NonBreakingSpace", "Tab", "ThickSpace", "ThinSpace", "VeryThinSpace",
    "emsp", "emsp13", "emsp14", "ensp", "hairsp", "nbsp", "numsp", "puncsp",
    "thinsp"].map String.toList

/-- Whether the character of a number is visible. From 128 to 159 a number stands for a graphic
character of the Western code page. -/
def numberVisible (n : Nat) : Bool :=
  n == 0x85 || n > 0x10ffff || !(n.isValidChar && isBlank (Char.ofNat n))

/-- A text behind the semicolon that it may begin with. -/
def behindSemicolon : List Char → List Char
  | ';' :: rest => rest
  | s => s

/-- The digits of a numeric reference, if something that is no digit ends them. -/
def digitsOf? (isDigit : Char → Bool) (s : List Char) : Option (List Char × List Char) :=
  match s.takeWhile isDigit, s.dropWhile isDigit with
  | d :: digits, c :: rest =>
    if (hexValue? c).isSome then none else some (d :: digits, c :: rest)
  | _, _ => none

/-- The number that digits write in a base. -/
def numberOf (base : Nat) (digits : List Char) : Nat :=
  digits.foldl (fun n d => n * base + (hexValue? d).getD 0) 0

/-- A numeric reference; `s` stands behind its mark. One without digits is text, and so is all that
follows in this pass. -/
def numericReference (s : List Char) : Found :=
  let unread := if s.contains ';' then Found.halt [.text true] s else .unfinished
  match s with
  | [] => unread
  | c :: rest =>
    if c == 'x' || c == 'X' then
      match digitsOf? (fun d => (hexValue? d).isSome) rest with
      | some (digits, rest) =>
        .construct [.text (numberVisible (numberOf 16 digits))] (behindSemicolon rest)
      | none => unread
    else
      match digitsOf? Char.isDigit s with
      | some (digits, rest) =>
        if digits.length > digitLimit then .unreadable (.referenceDigits digits.length)
        else .construct [.text (numberVisible (numberOf 10 digits))] (behindSemicolon rest)
      | none => unread

/-- The name of a reference and the text behind it. At the end of the text only a hyphen or a full
stop inside the run ends a name. -/
def referenceName? (s : List Char) : Option (List Char × List Char) :=
  let goesOn := fun d : Char => d.isAlphanum || d == '-' || d == '.'
  match s with
  | [] => none
  | c :: more =>
    if c.isAlpha then
      match more.dropWhile goesOn with
      | d :: rest => some (c :: more.takeWhile goesOn, d :: rest)
      | [] =>
        match more.reverse.span fun d => !(d == '-' || d == '.') with
        | (tail, stop :: name) => some (c :: name.reverse, stop :: tail.reverse)
        | (_, []) => none
    else none

/-- A named reference; `s` stands behind its mark. -/
def namedReference (s : List Char) : Found :=
  match referenceName? s with
  | some (name, rest) => .construct [.text !(blankNames.contains name)] (behindSemicolon rest)
  | none =>
    match s with
    | [] => .unfinished
    | c :: _ => if c.isAlpha then .unfinished else .construct [.text true] s

/-! ### All together -/

/-- What stands at the head of a text outside raw text. -/
def classify (s : List Char) : Found :=
  match s with
  | [] => .unfinished
  | '<' :: '/' :: rest => endTagOf rest
  | '<' :: '!' :: '-' :: '-' :: rest => .silent (behindComment? rest)
  | '<' :: '?' :: rest => .silent (behind? ['>'] rest)
  | '<' :: '!' :: rest => declaration rest
  | '<' :: c :: rest =>
    if c.isAlpha then beginTag (c :: rest) else .construct [.text true] (c :: rest)
  | ['<'] => .unfinished
  | '&' :: '#' :: rest => numericReference rest
  | '&' :: rest => namedReference rest
  | c :: rest =>
    let plain := fun d : Char => d != '<' && d != '&'
    .construct [.ofText (c :: rest.takeWhile plain)] (rest.dropWhile plain)

/-- What the last pass goes on with behind a construct that is not finished: it takes the text up to
the next `>`, or else up to the next `<`, or else one character. -/
def behindUnfinished : List Char → List Char
  | [] => []
  | _ :: s =>
    match behind? ['>'] s with
    | some rest => rest
    | none => if s.contains '<' then s.dropWhile (· != '<') else s

/-- The text behind the end tag of a raw text element, if it is there. Something that looks like the
end tag without being one is part of the content. -/
def behindRawText? (name : List Char) : (fuel : Nat) → List Char → Option (List Char)
  | 0, _ => none
  | _ + 1, [] => none
  | fuel + 1, c :: s =>
    match (after? "</".toList (c :: s)).bind fun inner =>
        (afterCaseless? name (trimStart inner)).bind fun rest => after? ['>'] (trimStart rest) with
    | none => behindRawText? name fuel s
    | some rest =>
      match plainEndTag? ((c :: s).drop 2) with
      | some (found, rest) => if found == name then some rest else behindRawText? name fuel rest
      | none => behindRawText? name fuel rest

/-! ## Passes -/

/-- The events of one pass in order, the text that it leaves, and whether it stopped inside raw text
of the given name. -/
structure Pass where
  events : List Event
  rest : List Char
  inside : Option (List Char)

/-- One pass over a text, at most `fuel` constructs long; the last pass takes unfinished constructs
for text. The events so far are in reverse. -/
def runPass (last : Bool) : (fuel : Nat) → List Event → (inside : Option (List Char)) →
    List Char → Except Unreadable Pass
  | 0, events, inside, s => .ok ⟨events.reverse, s, inside⟩
  | fuel + 1, events, some name, s =>
    match behindRawText? name s.length s with
    | some rest => runPass last fuel (.closing name :: events) none rest
    | none => .ok ⟨events.reverse, s, some name⟩
  | fuel + 1, events, none, s =>
    match classify s with
    | .construct more rest => runPass last fuel (more.reverse ++ events) none rest
    | .rawText name rest => runPass last fuel (.opening name false :: events) (some name) rest
    | .halt more rest => .ok ⟨(more.reverse ++ events).reverse, rest, none⟩
    | .unreadable why => .error why
    | .unfinished =>
      if last && s.head? == some '<' && s.length > 1 then
        runPass last fuel (.text true :: events) none (behindUnfinished s)
      else .ok ⟨events.reverse, s, none⟩

/-- The events of a text: what the last pass leaves is text, unless it is raw. -/
def Event.ofMarkup (s : List Char) : Except Unreadable (List Event) := do
  let first ← runPass false (2 * s.length + 1) [] none s
  let second ← runPass true (2 * first.rest.length + 1) [] first.inside first.rest
  let left :=
    if second.inside.isSome || second.rest.isEmpty then [] else [Event.ofText second.rest]
  return first.events ++ second.events ++ left

end VersionedSite.Markup
