import ParseMarkup.Text.Quoted

/-!
# Log entries

What the library reports about its work. An entry is kept as the thing that happened;
`LogEntry.line` gives the line that a log shows for it, its level first.
-/

namespace ParseMarkup

/-- How much a log entry matters. -/
inductive LogLevel where
  | trace
  | debug
  | warn
  deriving DecidableEq, Repr

/-- The word that opens a log line of this level. -/
def LogLevel.word : LogLevel → String
  | .trace => "TRACE"
  | .debug => "DEBUG"
  | .warn => "WARN"

/-- One thing that happened while a tree was printed, written or dumped. -/
inductive LogEntry where
  /-- A dump begins; `element` is the element name of its root. -/
  | dumpStarted (element : String)
  /-- A dump and the closing of its sink have both succeeded. -/
  | dumpFinished
  /-- The writer enters a node, before it makes the first call for it. `depth` counts the node
  itself, so the root of a tree is at depth 1. -/
  | entering (element : String) (id : Option String) (depth : UInt64)
  /-- A value could not be displayed to its end. -/
  | displayFailed
  /-- The dump failed, and then closing the sink failed too, for the reason `reason`. -/
  | closeFailed (reason : String)
  deriving DecidableEq, Repr

namespace LogEntry

/-- Entering a node is traced, the ends of a dump are debugging aid, failures are warnings. -/
def level : LogEntry → LogLevel
  | dumpStarted _ => .debug
  | dumpFinished => .debug
  | entering .. => .trace
  | displayFailed => .warn
  | closeFailed _ => .warn

/-- The text of an entry without its level. -/
def message : LogEntry → String
  | dumpStarted element => "dumping parse tree rooted at <" ++ element ++ ">"
  | dumpFinished => "parse tree dump finished"
  | entering element id depth =>
      "writing <" ++ element ++ "> id=" ++ Text.quotedOption id ++ " at depth " ++
        depth.toNat.repr
  | displayFailed => "formatting a value failed; keeping its partial output"
  | closeFailed reason => "closing sink after failed dump also failed: " ++ reason

/-- The line of a log: level, blank, message. -/
def line (entry : LogEntry) : String :=
  entry.level.word ++ " " ++ entry.message

end LogEntry

end ParseMarkup
