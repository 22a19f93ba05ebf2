/-!
# Log

What happens during a session is told in records. A record has a level and a text; a log shows
the records that reach its level, one after the other.

## Main definitions

* `Level`: the four named levels
* `Record`: a text at a level, which may lie between the named ones
* `Record.line`: how a record is shown
* `Log.write`: what a log of a given level shows of some records
-/

namespace NaturalDeduction

inductive Level where
  | debug
  | info
  | warning
  | error
deriving DecidableEq

/-- The rank of a level. -/
def Level.rank : Level → Int
  | .debug => 10
  | .info => 20
  | .warning => 30
  | .error => 40

structure Record where
  rank : Int
  text : String
deriving DecidableEq

namespace Record

def debug (text : String) : Record := ⟨Level.debug.rank, text⟩

def info (text : String) : Record := ⟨Level.info.rank, text⟩

def warning (text : String) : Record := ⟨Level.warning.rank, text⟩

def error (text : String) : Record := ⟨Level.error.rank, text⟩

/-- A record from the level of information up is shown bare; a lower one names its level. -/
def line (r : Record) : String :=
  if Level.info.rank ≤ r.rank then r.text
  else if r.rank = Level.debug.rank then "[DEBUG] " ++ r.text
  else "[Level " ++ toString r.rank ++ "] " ++ r.text

end Record

namespace Log

/-- The lines of the records that reach the level. -/
def write (level : Level) (records : List Record) : String :=
  String.join ((records.filter fun r => level.rank ≤ r.rank).map fun r => r.line ++ "\n")

/-! ## Records of a proof under construction -/

def lineAdded (index depth formula justification : String) : Record :=
  .debug ("    ➕ line " ++ index ++ " at depth " ++ depth ++ ": " ++ formula ++
    "  [" ++ justification ++ "]")

def lineDeleted (index boundary depth : String) : Record :=
  .debug ("    ➖ line " ++ index ++ " removed (boundary=" ++ boundary ++ ", depth=" ++ depth ++ ")")

def depthChanged (old new : String) : Record :=
  .debug ("    ↕ depth " ++ old ++ " → " ++ new)

def ruleRejected (rule : String) (cited : List String) (reason : String) : Record :=
  .debug ("    💥 " ++ rule ++ " [" ++ ", ".intercalate cited ++ "] rejected: " ++ reason)

def commandResult (command : String) (ok : Bool) (message : String) : Record :=
  .debug ((if ok then "✅ " else "❌ ") ++ command ++
    (if message = "" then "" else " - " ++ message))

end Log

end NaturalDeduction
