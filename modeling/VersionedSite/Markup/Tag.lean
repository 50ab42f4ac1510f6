import VersionedSite.Text.Blank
import VersionedSite.Text.Caseless
import VersionedSite.Text.Scan
import VersionedSite.Text.Search
import VersionedSite.Text.Word

/-!
# Tags left open

Tags are found by looking at the text: comments and the elements that hold raw text are passed over,
and a stack follows what is open. A closing tag closes everything above the nearest element of its
name and is ignored if there is none.
-/

namespace VersionedSite.Markup

open Text

/-! ## What is passed over -/

/-- The rest of a text behind the first place where a recogniser answers. -/
def skipTo? (r : Recogniser Unit) : List Char → Option (List Char)
  | [] => (r []).map Prod.snd
  | c :: s =>
    match r (c :: s) with
    | some (_, rest) => some rest
    | none => skipTo? r s

/-- A comment that is closed. -/
def comment? : Recogniser Unit := fun s =>
  (after? "<!--".toList s).bind (breakOn? "-->".toList) |>.map fun (_, rest) => ((), rest)

/-- The elements whose content is raw text. -/
def rawTextNames : List (List Char) := ["script".toList, "style".toList, "textarea".toList]

/-- The end tag of a raw text element that was opened as `word`. -/
def rawTextEnd? (word : List Char) : Recogniser Unit := fun s =>
  (after? "</".toList s).bind (afterRepeat? word) |>.bind fun rest =>
    (after? ['>'] (trimStart rest)).map fun rest => ((), rest)

/-- A raw text element with its end tag, of the given name. -/
def rawTextOf? (name : List Char) : Recogniser Unit := fun s =>
  (after? ['<'] s).bind (spelled? name) |>.bind fun (word, rest) =>
    if wordBoundary word.getLast? rest.head? then
      (after? ['>'] (rest.dropWhile (· != '>'))).bind (skipTo? (rawTextEnd? word)) |>.map
        fun rest => ((), rest)
    else none

/-- A raw text element with its end tag. -/
def rawText? : Recogniser Unit := fun s => rawTextNames.findSome? fun name => rawTextOf? name s

/-- A text without comments, and then without raw text elements. -/
def scannable (html : List Char) : List Char := remainder rawText? (remainder comment? html)

/-! ## Tags -/

/-- A tag as it stands in a text. -/
structure Tag where
  /-- Whether it is a closing tag. -/
  closing : Bool
  /-- Its name, in lower case. -/
  name : List Char
  /-- What stands between the name and the end of the tag. -/
  attributes : List Char
  deriving DecidableEq, Repr

/-- Whether a character can go on a tag's name. -/
def isNameChar (c : Char) : Bool := c.isAlphanum || c == ':' || c == '-'

/-- The attributes of a tag and what stands behind its end: the first `>` outside quotes. -/
def attributes? : (quote : Option Char) → List Char → Option (List Char × List Char)
  | _, [] => none
  | none, c :: s =>
    if c == '>' then some ([], s)
    else
      (attributes? (if c == '"' || c == '\'' then some c else none) s).map
        fun (attrs, rest) => (c :: attrs, rest)
  | some q, c :: s =>
    (attributes? (if c == q then none else some q) s).map fun (attrs, rest) => (c :: attrs, rest)

/-- The name and attributes of a tag behind its opening mark. -/
def tagBody? (closing : Bool) : Recogniser Tag
  | [] => none
  | c :: s =>
    if c.isAlpha then
      let name := c :: s.takeWhile isNameChar
      (attributes? none (s.dropWhile isNameChar)).map fun (attributes, rest) =>
        ({ closing, name := name.map Char.toLower, attributes }, rest)
    else none

/-- A tag. -/
def tag? : Recogniser Tag
  | '<' :: '/' :: s => tagBody? true s
  | '<' :: s => tagBody? false s
  | _ => none

/-! ## The stack of open elements -/

/-- The elements that never have content. -/
def voidNames : List (List Char) :=
  ["area", "base", "br", "col", "embed", "hr", "img", "input", "link", "meta", "param", "source",
    "track", "wbr"].map String.toList

/-- Whether a tag stands for itself: a void element, or one that ends in a slash. -/
def Tag.standsAlone (t : Tag) : Bool :=
  voidNames.contains t.name || (trimEnd t.attributes).getLast? == some '/'

/-- The stack, innermost first, after a closing tag. -/
def close (name : List Char) (stack : List (List Char)) : List (List Char) :=
  if stack.contains name then (stack.dropWhile (· != name)).tail else stack

/-- The stack, innermost first, after a tag. -/
def Tag.apply (stack : List (List Char)) (t : Tag) : List (List Char) :=
  if t.standsAlone then stack
  else if t.closing then close t.name stack
  else t.name :: stack

/-- The stack, innermost first, after a row of tags. -/
def openAfter (stack : List (List Char)) (tags : List Tag) : List (List Char) :=
  tags.foldl Tag.apply stack

/-- The names of the elements that a text leaves open, outermost first. -/
def unclosed (html : List Char) : List (List Char) :=
  (openAfter [] (findings tag? (scannable html))).reverse

/-- The end tag of a name. -/
def endTag (name : List Char) : List Char := '<' :: '/' :: (name ++ ['>'])

end VersionedSite.Markup
