import VersionedSite.Clock
import VersionedSite.Log.Message
import VersionedSite.Settings
import VersionedSite.Text.Calendar

/-!
# Log lines

A record is written as one JSON object on a line of its own. Which records are written is decided by
two levels, one for the program and one for everything else.
-/

namespace VersionedSite.Log

/-- The word for a level. -/
def levelName (level : Int) : String :=
  if level = 50 then "CRITICAL"
  else if level = 40 then "ERROR"
  else if level = 30 then "WARNING"
  else if level = 20 then "INFO"
  else if level = 10 then "DEBUG"
  else if level = 0 then "NOTSET"
  else "Level " ++ toString level

/-- Something to be written to the log. -/
structure Record where
  logger : String
  level : Int
  template : String
  arguments : List Json := []
  /-- The kind and the text of an error that goes with it. -/
  error : Option (String × String) := none
  extra : Option Json := none

/-- The text of an error. -/
def errorText (kind text : String) : String := if text = "" then kind else kind ++ ": " ++ text

/-- Why a record has no line. -/
inductive LineFault where
  | time (fault : Text.DateFault)
  | message (fault : FillFault)
  deriving DecidableEq, Repr

/-- The line of a record that is written at a time in milliseconds. -/
def Record.line (r : Record) (now : Int) : Except LineFault String := do
  let time ← (Text.timestamp (clockSeconds now).toBinary).mapError .time
  let message ← (fill r.template r.arguments).mapError .message
  return (Json.obj <|
    [("timestamp", .str time), ("level", .str (levelName r.level)), ("logger", .str r.logger),
     ("message", .ofPoints message)] ++
    (r.error.map fun e => ("exception", .str (errorText e.1 e.2))).toList ++
    (r.extra.map fun e => ("extra", e)).toList).render Json.spaced

/-- What lines are written as. -/
inductive Format where
  | json
  | text
  deriving DecidableEq, Repr

/-- How logging is set up. -/
structure Setup where
  /-- The level for everything but the program. -/
  rootLevel : Int
  /-- The level for the program. -/
  level : Int
  /-- Whether the program's records also go to the handlers of everything else. -/
  propagate : Bool
  format : Format
  deriving DecidableEq, Repr

/-- How logging is set up by the settings: details are written when debugging. -/
def Setup.ofSettings (s : Settings) : Setup :=
  { rootLevel := 20
    level := if s.debug || s.composeDebug then 10 else 20
    propagate := false
    format := if s.logJson then .json else .text }

end VersionedSite.Log
