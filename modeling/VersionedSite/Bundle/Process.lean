import VersionedSite.Bundle.Request
import VersionedSite.Path.Plain
import VersionedSite.Text.Blank
import VersionedSite.Text.Lines
import VersionedSite.Text.Search
import VersionedSite.Text.Utf8

/-!
# Runner processes

Bundling and rendering are done by short-lived processes, one for each call. A process is given a
script, arguments and perhaps an input, and it ends in one of a few ways; what can be told from that
is a result or a fault. Lines of a process's complaints that begin with a mark are warnings.

* `warnings_lines`: a warning is a marked line, without the mark and the blanks around.
* `build_ended`: a build that ends well and in time gives the text that the process wrote.
-/

namespace VersionedSite.Bundle

open Text

/-- Why a call of the toolchain failed. -/
inductive Fault where
  /-- The process could not be started. -/
  | notStarted (binary reason : String)
  /-- The process did not end in time. -/
  | timedOut (script : String) (seconds : Number)
  /-- The process ended with a code other than zero; `tail` is the end of its complaints. -/
  | failed (script : String) (code : Int) (tail : String)
  /-- What the process wrote is no text. -/
  | unreadable
  deriving DecidableEq, Repr

/-- The reason of a fault that the toolchain itself reports. -/
def Fault.message : Fault → String
  | notStarted binary reason => s!"Could not start {binary}: {reason}"
  | timedOut script seconds => script ++ " timed out after " ++ seconds.text ++ " seconds"
  | failed script code tail => s!"{script} exited with code {code}: {tail}"
  | unreadable => "the output is not text"

/-- How a process ended. -/
inductive Ending where
  | notStarted (reason : String)
  | hung
  | ended (code : Int) (output complaints : List UInt8)
  deriving DecidableEq, Repr

/-- What is done with a process. -/
inductive Action where
  | spawn (binary script : String) (arguments : List String) (directory : String)
  | send (input : Option String)
  | kill
  | wait
  deriving DecidableEq, Repr

/-- How processes are started and how long they may take. -/
structure Runner where
  binary : String := "node"
  directory : String
  /-- The time limit in seconds. -/
  limit : Number := .real (.ofInt 60)

namespace Runner

/-- The number of characters of its complaints that a fault quotes. -/
def tailLength : Nat := 2000

/-- The end of complaints, without the blanks around them. -/
def tail (complaints : List Char) : List Char :=
  let trimmed := trim complaints
  trimmed.drop (trimmed.length - tailLength)

/-- Whether the limit leaves a process any time; one that has none is not even sent its input. -/
def givesTime (r : Runner) : Bool := (Number.int 0).less r.limit

/-- The texts that a process wrote, or the fault that its ending is. -/
def outcome (r : Runner) (script : String) : Ending → Except Fault (List Char × List Char)
  | .notStarted reason => .error (.notStarted r.binary reason)
  | .hung => .error (.timedOut script r.limit)
  | .ended code output complaints =>
    let complaints := Utf8.decodeLossy complaints
    if r.givesTime = false then .error (.timedOut script r.limit)
    else if code ≠ 0 then .error (.failed script code (String.ofList (tail complaints)))
    else
      match Utf8.decode? output with
      | some output => .ok (output, complaints)
      | none => .error .unreadable

/-- What is done with a process that ends in a given way. -/
def actions (r : Runner) (script : String) (arguments : List String) (input : Option String)
    (ending : Ending) : List Action :=
  .spawn r.binary script arguments r.directory ::
    match r.givesTime, ending with
    | _, .notStarted _ => []
    | false, _ => [.kill, .wait]
    | true, .hung => [.send input, .kill, .wait]
    | true, .ended .. => [.send input]

/-- What a warning begins with. -/
def warningMark : String := "WARN "

/-- The warnings among complaints. -/
def warnings (complaints : List Char) : List String :=
  (lines complaints).filterMap fun l =>
    (after? warningMark.toList l).map fun rest => String.ofList (trim rest)

/-- The script that bundles. -/
def buildScript : String := "build.mjs"

/-- The script that renders. -/
def renderScript : String := "render.mjs"

/-- The arguments of a rendering: the path of the module. -/
def renderArguments (module : String) : List String := [Path.plain module]

/-- The output of a build whose process ends in a given way. -/
def build (r : Runner) (ending : Ending) : Except Fault Output :=
  (r.outcome buildScript ending).map fun (output, complaints) =>
    { code := String.ofList output, warnings := warnings complaints }

/-- The markup of a rendering whose process ends in a given way. -/
def render (r : Runner) (ending : Ending) : Except Fault String :=
  (r.outcome renderScript ending).map fun (output, _) => String.ofList output

theorem warnings_lines {complaints : List Char} {w : String} (h : w ∈ warnings complaints) :
    ∃ rest, warningMark.toList ++ rest ∈ lines complaints ∧ w = String.ofList (trim rest) := by
  obtain ⟨l, hl, hw⟩ := List.mem_filterMap.1 h
  obtain ⟨rest, hr, rfl⟩ := Option.map_eq_some_iff.1 hw
  exact ⟨rest, eq_append_of_after? hr ▸ hl, rfl⟩

theorem build_ended {r : Runner} (h : r.givesTime = true) (output complaints : List Char) :
    r.build (.ended 0 (Utf8.encode output) (Utf8.encode complaints)) =
      .ok { code := String.ofList output, warnings := warnings complaints } := by
  simp [build, outcome, h, Utf8.decode?_encode, Utf8.decodeLossy_encode, Except.map]

end Runner

end VersionedSite.Bundle
