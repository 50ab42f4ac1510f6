import VersionedSite.Bundle.Plugin
import VersionedSite.Bundle.Process

/-!
# Bundling a snapshot

The script that bundles reads a request, has the bundler build it, and writes the first output. What
the bundler asks on the way is answered from the request. Warnings are written as marked lines, a
failure as a line that is not marked.
-/

namespace VersionedSite.Bundle

/-- What the bundler is told. -/
structure Options where
  /-- The specifier to begin with. -/
  entryPoint : String
  platform : String
  /-- Names replaced by expressions. -/
  defines : List (String × String) := []
  /-- Specifiers that are left to be resolved when the bundle runs. -/
  externals : List String := []

/-- The options for a target. -/
def Target.options : Target → Options
  | .browser =>
    { entryPoint := mountSpecifier, platform := "browser"
      defines := [("process.env.NODE_ENV", "\"production\"")] }
  | .server | .named _ =>
    { entryPoint := entrySpecifier, platform := "node"
      externals := runtimePackages.flatMap fun p => [p, p ++ "/*"] }

/-- The name under which the request's answers are registered. -/
def pluginName : String := "project-snapshot"

/-- The options as they are passed. -/
def Options.json (o : Options) : Json :=
  .obj <|
    [("bundle", .bool true), ("write", .bool false), ("format", .str "esm"),
     ("jsx", .str "automatic"), ("outfile", .str "bundle.js"), ("logLevel", .str "silent"),
     ("plugins", Json.strings [pluginName]), ("entryPoints", Json.strings [o.entryPoint]),
     ("platform", .str o.platform)] ++
    (if o.defines.isEmpty then [] else [("define", .obj (o.defines.map fun d => (d.1, .str d.2)))]) ++
    (if o.externals.isEmpty then [] else [("external", Json.strings o.externals)])

/-- What the bundler asks while it builds. -/
inductive Query where
  | resolve (q : Question)
  | load (path space : String)

/-- What the bundler is answered. -/
inductive Answer where
  | resolved (answer : Except Breakdown (Option Resolution))
  | loaded (module : Option Loaded)

/-- How the bundler ends. -/
inductive Conclusion where
  | failed (message : String)
  | finished (warnings outputs : List String)

/-- The course of a build: the answers, what was asked back, and the warnings. -/
structure Course where
  answers : List Answer := []
  inquiries : List Inquiry := []
  warnings : List String := []

/-- The course with one more query. -/
def Course.step (r : Request) (i : Installation) (known : Known) (c : Course) : Query → Course
  | .resolve q =>
    let reply := r.resolve i known q
    { answers := c.answers ++ [.resolved reply.answer]
      inquiries := c.inquiries ++ reply.inquiries
      warnings := c.warnings ++ reply.warnings }
  | .load path space => { c with answers := c.answers ++ [.loaded (r.load i path space)] }

/-- What comes of running the script. -/
structure Run where
  /-- The code that the process ends with. -/
  code : Nat
  output : String
  complaints : String
  /-- The course of the build, if it came to one. -/
  course : Option Course

/-- The lines of warnings. -/
def complaintsOf (warnings : List String) : String :=
  String.join (warnings.map fun w => Runner.warningMark ++ w ++ "\n")

/-- The line of a failure. -/
def failureLine (message : String) : String :=
  (if message = "" then "Error" else "Error: " ++ message) ++ "\n"

/-- Run the script on a request, given what the bundler asks and how it ends. -/
def run (r : Request) (i : Installation) (known : Known) (queries : List Query)
    (conclusion : Conclusion) : Run :=
  if r.files.contains r.entry then
    let course := queries.foldl (Course.step r i known) {}
    match conclusion with
    | .failed message =>
      { code := 1, output := "", course := some course
        complaints := complaintsOf course.warnings ++ failureLine message }
    | .finished warnings outputs =>
      let complaints := complaintsOf (course.warnings ++ warnings)
      match outputs with
      | [] =>
        { code := 1, output := "", course := some course
          complaints := complaints ++ failureLine "esbuild produced no output" }
      | output :: _ => { code := 0, output, complaints, course := some course }
  else
    { code := 1, output := "", course := none
      complaints := failureLine s!"entry {r.entry} missing from snapshot" }

/-- The lines of complaints; nothing but a line feed ends a line. -/
def Run.complaintLines (x : Run) : List String := x.complaints.splitOn "\n"

/-- The lines of complaints that are warnings, marks and all. -/
def Run.warningLines (x : Run) : List String :=
  x.complaintLines.filter (·.startsWith Runner.warningMark)

/-- The first line of complaints that is no warning. -/
def Run.failure? (x : Run) : Option String :=
  x.complaintLines.find? fun l => l ≠ "" && !l.startsWith Runner.warningMark

end VersionedSite.Bundle
