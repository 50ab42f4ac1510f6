import VersionedSite.Document.Shell
import VersionedSite.Proofs.Text.Escape
import VersionedSite.Proofs.Text.Search

/-!
# What a page is read for

Both pages are the same up to their body (`frame_eq`). Whoever reads a page that loads a browser module finds
the address of the module, escaped as it stands in an attribute, wherever the styles come from
(`moduleSource?_loaderPage`). And whoever reads a rendered page finds the markup, and that as it was rendered
(`renderedMarkup?_wrapMarkup`).
-/

namespace VersionedSite.Document

open Text

/-! ## The frame -/

/-- A page up to the address of its styles. -/
def frameLead : String :=
  String.intercalate "\n"
    ["<!DOCTYPE html>",
     "<html lang=\"en\">",
     "<head>",
     "  <meta charset=\"UTF-8\" />",
     "  <meta name=\"viewport\" content=\"width=device-width, initial-scale=1.0\" />",
     "  <title>Landing Page</title>",
     "  <script src=\""]

/-- A page between the address of its styles and its body. -/
def frameMiddle : String := String.intercalate "\n" ["\"></script>", "</head>", "<body>\n"]

/-- A page behind its body. -/
def frameEnd : String := "\n</body>\n</html>"

theorem frame_eq (styles body : String) :
    frame styles body = frameLead ++ escape styles ++ frameMiddle ++ body ++ frameEnd := by
  have hend : "\n" ++ ("</body>" ++ ("\n" ++ "</html>")) = frameEnd := by decide
  simp only [frame, frameLead, frameMiddle, String.intercalate_cons_cons, String.intercalate_singleton,
    String.append_assoc]
  rw [hend]
  rfl

/-- A mark that begins like a tag does not come before the body, whatever the address of the styles is. -/
theorem avoids_front {mark : List Char} (hmark : mark.head? = some '<')
    (hlead : avoids mark frameLead.toList = true) (hmiddle : avoids mark frameMiddle.toList = true)
    (styles : String) : avoids mark (frameLead ++ escape styles ++ frameMiddle).toList = true := by
  obtain ⟨rest, rfl⟩ := List.head?_eq_some_iff.1 hmark
  have hstyles : avoids ('<' :: rest) (escapeChars styles.toList) = true :=
    avoids_of_not_mem (lt_not_mem_escape _)
  rw [String.toList_append, String.toList_append, escape, String.toList_ofList]
  exact avoids_append (avoids_append hlead hstyles) hmiddle

/-! ## Addresses of modules -/

/-- What stands in front of the address of a module. -/
def moduleLead : String := "<script type=\"module\" src=\""

/-- The address of the first module that a page loads, as it stands in the page. -/
def moduleSource? (page : String) : Option String :=
  (breakOn? moduleLead.toList page.toList).bind fun found =>
    (breakOn? ['"'] found.2).map fun quoted => String.ofList quoted.1

/-- The body up to the module: a root that is still empty. -/
def emptyRoot : String := "  <div id=\"root\"></div>\n  "

theorem loaderPage_eq (url styles : String) :
    loaderPage url styles =
      frameLead ++ escape styles ++ frameMiddle ++ emptyRoot ++ moduleLead ++ escape url ++ "\"" ++
        ("></script>" ++ frameEnd) := by
  have hlead : "  <div id=\"root\"></div>\n  <script type=\"module\" src=\"" = emptyRoot ++ moduleLead := by
    decide
  have hend : "\"></script>" = "\"" ++ "></script>" := by decide
  rw [loaderPage, frame_eq, hlead, hend]
  simp only [String.append_assoc]

theorem moduleSource?_loaderPage (url styles : String) :
    moduleSource? (loaderPage url styles) = some (escape url) := by
  have hroot : avoids moduleLead.toList emptyRoot.toList = true := by decide +kernel
  have hfront := avoids_append (avoids_front rfl (by decide +kernel) (by decide +kernel) styles) hroot
  have hpage : (loaderPage url styles).toList =
      (frameLead ++ escape styles ++ frameMiddle).toList ++ emptyRoot.toList ++
        (moduleLead.toList ++ (escapeChars url.toList ++ '"' :: ("></script>" ++ frameEnd).toList)) := by
    rw [loaderPage_eq]
    simp [escape]
  rw [moduleSource?, hpage, breakOn?_of_avoids (by decide) hfront, Option.bind_some,
    breakOn?_of_not_mem (quote_not_mem_escapeChars _), Option.map_some, ← escape]

/-! ## Rendered markup -/

/-- What stands in front of the markup of a rendered page. -/
def markupLead : String := "<div id=\"root\">"

/-- What stands behind it. -/
def markupEnd : String := "</div>" ++ frameEnd

/-- The markup of a rendered page: what is between the begin tag of its root and its end. -/
def renderedMarkup? (page : String) : Option String :=
  (breakOn? markupLead.toList page.toList).bind fun found =>
    (after? markupEnd.toList.reverse found.2.reverse).map fun markup => String.ofList markup.reverse

theorem wrapMarkup_eq (markup styles : String) :
    wrapMarkup markup styles =
      frameLead ++ escape styles ++ frameMiddle ++ "  " ++ markupLead ++ markup ++ markupEnd := by
  have hlead : "  <div id=\"root\">" = "  " ++ markupLead := by decide
  rw [wrapMarkup, frame_eq, hlead, markupEnd]
  simp only [String.append_assoc]

/-- Markup stands in its page as it is, whatever is in it. -/
theorem renderedMarkup?_wrapMarkup (markup styles : String) :
    renderedMarkup? (wrapMarkup markup styles) = some markup := by
  have hgap : avoids markupLead.toList "  ".toList = true := by decide
  have hfront := avoids_append (avoids_front rfl (by decide +kernel) (by decide +kernel) styles) hgap
  have hpage : (wrapMarkup markup styles).toList =
      (frameLead ++ escape styles ++ frameMiddle).toList ++ "  ".toList ++
        (markupLead.toList ++ (markup.toList ++ markupEnd.toList)) := by
    rw [wrapMarkup_eq]
    simp only [String.toList_append, List.append_assoc]
  rw [renderedMarkup?, hpage, breakOn?_of_avoids (by decide) hfront, Option.bind_some,
    List.reverse_append, after?_append, Option.map_some, List.reverse_reverse, String.ofList_toList]

end VersionedSite.Document
