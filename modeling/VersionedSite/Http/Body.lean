import VersionedSite.Json.Reader
import VersionedSite.Text.Utf8
import VersionedSite.Text.Wide

/-!
# Bodies

The body of a request is JSON in whatever encoding its first bytes give away. A mark of the byte order
is no part of it. An empty body and null are as good as none.
-/

namespace VersionedSite.Http

open Text

/-- What a request brings as its body. -/
inductive Body where
  | missing
  | value (j : Json)

/-- Why a body is refused. -/
inductive BodyFault where
  /-- It is no JSON behind a number of characters. -/
  | malformed (offset : Nat)
  /-- It is no text, or one that asks too much of the reading. -/
  | unreadable
  deriving DecidableEq, Repr

/-- How freely bodies are read. -/
def bodyDialect : Json.Dialect := { beyond := true, digits := some 4300, depth := some 920 }

/-- A text without the mark of the byte order that it may begin with. -/
def unmarked (text : String) : String :=
  match text.toList with
  | '\ufeff' :: rest => String.ofList rest
  | _ => text

/-- The text that a body is sent as. `text` is what its bytes are if each stands for itself. -/
def decodedBody? (text : String) : Option String :=
  match Encoding.detect (Utf8.encode (text.toList.take 4)) with
  | .utf8 => some (unmarked text)
  | wide => (wide.decode? (Utf8.encode text.toList)).map fun p => String.ofList p.replaced

/-- The body that a text is. -/
def readBody (text : String) : Except BodyFault Body :=
  if text = "" then .ok .missing
  else
    match decodedBody? text with
    | none => .error .unreadable
    | some text =>
      match Json.parse bodyDialect text with
      | .ok .null => .ok .missing
      | .ok j => .ok (.value j)
      | .error (.malformed offset) => .error (.malformed offset)
      | .error _ => .error .unreadable

end VersionedSite.Http
