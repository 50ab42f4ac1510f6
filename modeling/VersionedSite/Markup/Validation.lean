import VersionedSite.Markup.Fence
import VersionedSite.Markup.Outline

/-!
# Validation of generated content

A text is taken out of its fences and checked for what its destination needs. Markup that fails gets
one repair: open elements are closed, and a document gets its root and type. A fragment that brings
its own document root is refused as it is. Component sources are never repaired.

* `Validation.isValid_iff`: a validation passes exactly when it found no defect.
-/

namespace VersionedSite.Markup

open Text

/-- What the structure of a text has to be. -/
inductive Structure where
  | document
  | fragment
  deriving DecidableEq, Repr

/-! ## Outcomes -/

/-- What is wrong with a text. -/
inductive Defect where
  | blank
  | tooLarge (limit : Int)
  | unreadable (why : Unreadable)
  | lacking (name : String)
  | vacantFragment
  | nestedRoot
  | open_ (names : List (List Char))
  | nestedComponentRoot
  | noDefaultExport
  deriving DecidableEq, Repr

/-- The message for a defect. -/
def Defect.message : Defect → String
  | blank => "Code content is empty"
  | tooLarge limit => s!"Code exceeds maximum size limit of {Int.fdiv limit 1024} KiB"
  | unreadable why => s!"Failed to parse HTML: {why.message}"
  | lacking name => s!"Missing <{name}> tag"
  | vacantFragment => "HTML fragment is empty"
  | nestedRoot => "Fragment contains a nested document root"
  | open_ names =>
    "Unclosed tag(s): " ++ String.intercalate ", " (names.map String.ofList)
  | nestedComponentRoot => "Component fragment renders a nested <html> or <body> root"
  | noDefaultExport => "Entry component must have a default export"

/-- What a validation changed. -/
inductive Fix where
  | unfenced
  | closed (count : Nat)
  | wrapped
  | typed
  deriving DecidableEq, Repr

/-- The report of a fix. -/
def Fix.message : Fix → String
  | unfenced => "Removed markdown code fences"
  | closed count => s!"Closed {count} unclosed tag(s)"
  | wrapped => "Wrapped content in <html> tags"
  | typed => "Added missing DOCTYPE declaration"

/-- The outcome of a validation. -/
structure Validation where
  /-- The text as it would be stored. -/
  code : List Char
  /-- What was changed, in order. -/
  fixes : List Fix := []
  /-- What is wrong with the text, in order. -/
  defects : List Defect := []
  deriving DecidableEq, Repr

namespace Validation

/-- Whether the text can be stored. -/
def isValid (v : Validation) : Bool := v.defects.isEmpty

theorem isValid_iff {v : Validation} : v.isValid = true ↔ v.defects = [] := by
  simp [isValid]

/-- Whether the text was refused for its size. -/
def isTooLarge (v : Validation) : Bool :=
  v.defects.any fun
    | .tooLarge _ => true
    | _ => false

/-- Whether a fragment was refused for its own document root. -/
def hasNestedRoot (v : Validation) : Bool :=
  v.defects.any fun
    | .nestedRoot => true
    | .nestedComponentRoot => true
    | _ => false

end Validation

/-! ## Before parsing -/

/-- The number of bytes of a text. -/
def byteCount (s : List Char) : Nat := s.foldl (fun n c => n + c.utf8Size) 0

/-- The refusal of a text that is blank or too large. -/
def precheck (raw : List Char) (limit : Int) : Option Validation :=
  if raw.all isBlank then some { code := raw, defects := [.blank] }
  else if (byteCount raw : Int) > limit then some { code := raw, defects := [.tooLarge limit] }
  else none

/-! ## Markup -/

/-- The defect of elements that are left open. -/
def openDefects (code : List Char) : List Defect :=
  match unclosed code with
  | [] => []
  | names => [.open_ names]

/-- What is wrong with a document of the given facts. -/
def documentDefects (o : Outline) : List Defect :=
  (["html", "head", "body"].filter fun name => !o.has name).map .lacking

/-- What is wrong with a fragment of the given facts. -/
def fragmentDefects (code : List Char) (o : Outline) : List Defect :=
  (if code.all isBlank || o.isVacant then [.vacantFragment] else []) ++
  (if o.hasRoot then [.nestedRoot] else [])

/-- What is wrong with a markup text. -/
def defectsOf (read : OutlineReader) (code : List Char) (structure_ : Structure) : List Defect :=
  match read code with
  | .error why => [.unreadable why]
  | .ok o =>
    (match structure_ with
      | .document => documentDefects o
      | .fragment => fragmentDefects code o) ++ openDefects code

/-- `<html` with a blank or its end behind it. -/
def htmlOpening? : Recogniser Unit := fun s =>
  (afterCaseless? "<html".toList s).bind fun
    | c :: rest => if isBlank c || c == '>' then some ((), rest) else none
    | [] => none

/-- `<!doctype`, blanks and `html`. -/
def htmlDoctype? : Recogniser Unit := fun s =>
  (afterCaseless? "<!doctype".toList s).bind fun
    | c :: rest =>
      if isBlank c then (afterCaseless? "html".toList (trimStart rest)).map fun rest => ((), rest)
      else none
    | [] => none

/-- A document type declaration and the blanks behind it. -/
def doctypeDeclaration? : Recogniser Unit := fun s =>
  (afterCaseless? "<!doctype".toList s).bind fun rest =>
    (behind? ['>'] rest).map fun rest => ((), trimStart rest)

/-- A text without the first thing that a recogniser finds in it. -/
def withoutFirst (r : Recogniser Unit) : List Char → List Char
  | [] => []
  | c :: s =>
    match r (c :: s) with
    | some (_, rest) => rest
    | none => c :: withoutFirst r s

/-- A text with its open elements closed, innermost first. -/
def closeOpen (code : List Char) : List Char × List Fix :=
  match unclosed code with
  | [] => (code, [])
  | names => (code ++ (names.reverse.map endTag).flatten, [.closed names.length])

/-- A text inside a document root, unless it has one. -/
def wrapRoot (code : List Char) : List Char × List Fix :=
  if anywhere htmlOpening? code then (code, [])
  else
    ("<html>\n".toList ++ trim (withoutFirst doctypeDeclaration? code) ++ "\n</html>".toList,
      [.wrapped])

/-- A text with a document type, if it had none. -/
def addDoctype (code : List Char) : List Char × List Fix :=
  if anywhere htmlDoctype? code then (code, [])
  else ("<!DOCTYPE html>\n".toList ++ code, [.typed])

/-- The one repair that a text gets. -/
def repair (code : List Char) : Structure → List Char × List Fix
  | .fragment => closeOpen code
  | .document =>
    let (code, closing) := closeOpen code
    let (code, wrapping) := wrapRoot code
    let (code, typing) := addDoctype code
    (code, closing ++ wrapping ++ typing)

/-- Taking a text out of its fences is a fix. -/
def unfenceFixes (stripped : Bool) : List Fix := if stripped then [.unfenced] else []

/-- Validate markup for a structure. -/
def validateMarkup (read : OutlineReader) (raw : List Char) (structure_ : Structure)
    (limit : Int) : Validation :=
  match precheck raw limit with
  | some refusal => refusal
  | none =>
    let (code, stripped) := unfence raw
    let fixes := unfenceFixes stripped
    let checked : Validation := { code, fixes, defects := defectsOf read code structure_ }
    if checked.isValid || checked.hasNestedRoot then checked
    else
      let (repaired, repairs) := repair code structure_
      { code := repaired, fixes := fixes ++ repairs, defects := defectsOf read repaired structure_ }

/-! ## Component sources -/

/-- The begin of an `html` or `body` element in a source. -/
def rootElement? : Recogniser Unit := fun s =>
  (after? ['<'] s).bind fun inner =>
    (["html", "body"].findSome? fun name => afterCaseless? name.toList (trimStart inner)).bind fun
      | c :: rest => if isBlank c || c == '>' || c == '/' then some ((), rest) else none
      | [] => none

/-- `export`, blanks and `default` as words of their own; `before` is the character before `s`. -/
def exportsDefault (before : Option Char) : List Char → Bool
  | [] => false
  | c :: s =>
    (match after? "export".toList (c :: s) with
      | some (gap :: rest) =>
        wordBoundary before (some c) && isBlank gap &&
          (match after? "default".toList (trimStart rest) with
            | some behind => wordBoundary (some 't') behind.head?
            | none => false)
      | _ => false) || exportsDefault (some c) s

/-- What is wrong with a component source. -/
def componentDefects (code : List Char) : Structure → List Defect
  | .fragment =>
    if code.isEmpty then [.blank]
    else if anywhere rootElement? code then [.nestedComponentRoot]
    else []
  | .document =>
    if code.isEmpty then [.blank]
    else if exportsDefault none code then []
    else [.noDefaultExport]

/-- Validate a component source for a structure. -/
def validateComponent (raw : List Char) (structure_ : Structure) (limit : Int) : Validation :=
  match precheck raw limit with
  | some refusal => refusal
  | none =>
    let (code, stripped) := unfence raw
    { code, fixes := unfenceFixes stripped, defects := componentDefects code structure_ }

end VersionedSite.Markup
