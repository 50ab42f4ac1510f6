import VersionedSite.Distinct
import VersionedSite.Text.Blank
import VersionedSite.Text.Scan
import VersionedSite.Text.Search
import VersionedSite.Text.Word

/-!
# Import specifiers

The modules that a component source asks for, found by looking at its text alone. Three forms are
recognised: `import … from "x"` and `export … from "x"`, the bare `import "x"`, and the call
`import("x")`. Of what they name, only project specifiers count: `./x`, `../x` and `@/x`.

* `isProject_iff`: the three ways in which a project specifier begins.
* `extract_nodup`: no specifier is listed twice.
* `isProject_of_mem_extract`: every one listed is a project specifier.
-/

namespace VersionedSite.Imports

open Text

/-! ## Parts of a declaration -/

/-- The mark that a specifier of the site's own root begins with. -/
def rootAlias : String := "@/"

/-- Whether a specifier names a file of the project. -/
def isProject (spec : String) : Bool :=
  ["./", "../", rootAlias].any fun lead => lead.toList.isPrefixOf spec.toList

theorem isProject_iff {spec : String} :
    isProject spec = true ↔
      "./".toList <+: spec.toList ∨ "../".toList <+: spec.toList ∨ "@/".toList <+: spec.toList := by
  simp [isProject, rootAlias]

/-- Whether a character opens or closes a specifier. -/
def isQuote (c : Char) : Bool := c == '\'' || c == '"'

/-- Whether a character can stand in the clause between a keyword and its `from`. -/
def isClauseChar (c : Char) : Bool :=
  isWord c || c == '*' || c == '$' || c == '\x7b' || c == '\x7d' || c == ',' || isBlank c

/-- What follows at least one blank and all further ones. -/
def afterBlanks? : List Char → Option (List Char)
  | [] => none
  | c :: s => if isBlank c then some (s.dropWhile isBlank) else none

/-- A specifier that is not empty, between two quotes of either kind. -/
def quotedSpecifier? : Recogniser (List Char)
  | [] => none
  | q :: s =>
    if isQuote q then
      match s.span fun c => !isQuote c with
      | (c :: spec, _ :: rest) => some (c :: spec, rest)
      | _ => none
    else none

/-- `from`, blanks and a specifier. -/
def fromSpecifier? : Recogniser (List Char) := fun s =>
  (after? "from".toList s).bind afterBlanks? |>.bind quotedSpecifier?

/-- The first `from` with its specifier behind a clause that has begun: clause characters only, the
last of them a blank. -/
def clauseRest? : Recogniser (List Char)
  | [] => none
  | c :: s =>
    if isClauseChar c then
      match if isBlank c then fromSpecifier? s else none with
      | some found => some found
      | none => clauseRest? s
    else none

/-- A clause of at least one character, a blank, and `from` with its specifier. -/
def clause? : Recogniser (List Char)
  | [] => none
  | c :: s => if isClauseChar c then clauseRest? s else none

/-- What is left behind one, two or more of the leading blanks, most blanks first. -/
def behindBlanks : List Char → List (List Char)
  | [] => []
  | c :: s => if isBlank c then behindBlanks s ++ [s] else []

/-- The places behind a keyword where its clause may begin: behind a leading `type` if one stands
there, else behind the blanks; fewer blanks are tried after more. -/
def clauseStarts (s : List Char) : List (List Char) :=
  match behindBlanks s with
  | [] => []
  | body :: fewer =>
    ((after? "type".toList body).elim [] behindBlanks) ++ body :: fewer

/-! ## Declarations -/

/-- `import` or `export`, a clause, and `from` with its specifier. -/
def clauseDeclaration? : Recogniser (List Char) := fun s =>
  (after? "import".toList s <|> after? "export".toList s).bind fun rest =>
    (clauseStarts rest).findSome? clause?

/-- `import` and a specifier. -/
def bareImport? : Recogniser (List Char) := fun s =>
  (after? "import".toList s).bind afterBlanks? |>.bind quotedSpecifier?

/-- `import` called with a specifier. -/
def importCall? : Recogniser (List Char) := fun s =>
  (after? "import(".toList s).bind fun rest =>
    (quotedSpecifier? (trimStart rest)).bind fun (spec, rest) =>
      (after? [')'] (trimStart rest)).map fun rest => (spec, rest)

/-- Any of the three forms. -/
def declaration? : Recogniser (List Char) := fun s =>
  clauseDeclaration? s <|> bareImport? s <|> importCall? s

/-! ## Extraction -/

/-- The project specifiers of a source, in order of first appearance. -/
def extract (source : String) : List String :=
  addNew [] (((findings declaration? source.toList).map String.ofList).filter isProject)

theorem extract_nodup (source : String) : (extract source).Nodup :=
  addNew_nodup (by simp) _

theorem isProject_of_mem_extract {source spec : String} (h : spec ∈ extract source) :
    isProject spec = true := by
  rcases mem_addNew.1 h with h | h
  · simp at h
  · exact (List.mem_filter.1 h).2

end VersionedSite.Imports
