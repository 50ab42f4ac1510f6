import VersionedSite.Markup.Event

/-!
# Outline of a markup text

The facts about a text's elements that decide where it may be stored: which elements it has, whether
it shows any text, and whether a document type stands outside all elements.

* `Outline.mem_elements`: an element counts wherever it stands.
-/

namespace VersionedSite.Markup

open Text

/-- The facts about a text. -/
structure Outline where
  /-- The names of its elements, in order. -/
  elements : List (List Char) := []
  /-- Whether it shows any text. -/
  hasText : Bool := false
  /-- Whether a document type stands outside all elements. -/
  hasDoctype : Bool := false
  deriving DecidableEq, Repr

namespace Outline

/-- The elements that never have content. -/
def emptyNames : List (List Char) :=
  ["area", "base", "br", "col", "embed", "hr", "img", "input", "keygen", "link", "menuitem", "meta",
    "param", "source", "track", "wbr", "basefont", "bgsound", "command", "frame", "image",
    "isindex", "nextid", "spacer"].map String.toList

/-- A reading under way. -/
structure Reading where
  /-- The facts so far. -/
  outline : Outline := {}
  /-- The open elements, innermost first. -/
  stack : List (List Char) := []

/-- The reading after an event. An element that has no content, or that its begin tag closes, is never
open. -/
def Reading.step (r : Reading) : Event → Reading
  | .opening name closed =>
    { outline := { r.outline with elements := r.outline.elements ++ [name] }
      stack := if closed || emptyNames.contains name then r.stack else name :: r.stack }
  | .closing name => { r with stack := close name r.stack }
  | .text visible =>
    { r with outline := { r.outline with hasText := r.outline.hasText || visible } }
  | .doctype =>
    { r with outline := { r.outline with hasDoctype := r.outline.hasDoctype || r.stack.isEmpty } }

/-- The facts of a row of events. -/
def ofEvents (events : List Event) : Outline := (events.foldl Reading.step {}).outline

theorem Reading.mem_elements (r : Reading) (events : List Event) {name : List Char} :
    name ∈ (events.foldl Reading.step r).outline.elements ↔
      name ∈ r.outline.elements ∨ ∃ closed, Event.opening name closed ∈ events := by
  induction events generalizing r with
  | nil => simp
  | cons e events ih =>
    rw [List.foldl_cons, ih]
    cases e with
    | opening n closed =>
      have h : (r.step (.opening n closed)).outline.elements = r.outline.elements ++ [n] := rfl
      rw [h]
      rw [List.mem_append, List.mem_singleton]
      constructor
      · rintro ((h | rfl) | ⟨c, h⟩)
        · exact .inl h
        · exact .inr ⟨closed, List.mem_cons_self ..⟩
        · exact .inr ⟨c, List.mem_cons_of_mem _ h⟩
      · rintro (h | ⟨c, h⟩)
        · exact .inl (.inl h)
        · rcases List.mem_cons.1 h with he | h
          · cases he
            exact .inl (.inr rfl)
          · exact .inr ⟨c, h⟩
    | closing n => simp [Reading.step]
    | text visible => simp [Reading.step]
    | doctype => simp [Reading.step]

theorem mem_elements {events : List Event} {name : List Char} :
    name ∈ (ofEvents events).elements ↔ ∃ closed, Event.opening name closed ∈ events := by
  rw [ofEvents, Reading.mem_elements]
  simp

/-- The facts of a text. -/
def ofMarkup (s : List Char) : Except Unreadable Outline := (Event.ofMarkup s).map ofEvents

/-- Whether an element of a name is there. -/
def has (o : Outline) (name : String) : Bool := o.elements.contains name.toList

/-- Whether the text brings the root of a document along. -/
def hasRoot (o : Outline) : Bool := o.has "html" || o.has "body" || o.hasDoctype

/-- Whether there is nothing to show. -/
def isVacant (o : Outline) : Bool := o.elements.isEmpty && !o.hasText

end Outline

/-- A way to find the facts about a text. -/
abbrev OutlineReader := List Char → Except Unreadable Outline

end VersionedSite.Markup
