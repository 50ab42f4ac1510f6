import VersionedSite.Document.Basic

/-!
# Document shells

The fixed page around the markup of a rendered component site, and the page that loads the site's
browser module. Both are the same page but for the lines of their body.
-/

namespace VersionedSite.Document

open Text

/-- Where styles come from unless the configuration says otherwise. -/
def defaultStyles : String := "https://cdn.tailwindcss.com"

/-- The page with the given lines as its body. -/
def frame (styles body : String) : String :=
  String.intercalate "\n"
    ["<!DOCTYPE html>",
     "<html lang=\"en\">",
     "<head>",
     "  <meta charset=\"UTF-8\" />",
     "  <meta name=\"viewport\" content=\"width=device-width, initial-scale=1.0\" />",
     "  <title>Landing Page</title>",
     "  <script src=\"" ++ escape styles ++ "\"></script>",
     "</head>",
     "<body>",
     body,
     "</body>",
     "</html>"]

/-- The page around server-rendered markup. -/
def wrapMarkup (markup styles : String) : String :=
  frame styles ("  <div id=\"root\">" ++ markup ++ "</div>")

/-- The page that loads a browser module. -/
def loaderPage (moduleUrl styles : String) : String :=
  frame styles
    ("  <div id=\"root\"></div>\n  <script type=\"module\" src=\"" ++ escape moduleUrl ++ "\"></script>")

end VersionedSite.Document
