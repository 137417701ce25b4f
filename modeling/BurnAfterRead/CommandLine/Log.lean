import BurnAfterRead.CommandLine.Parameter
import BurnAfterRead.Json.Writer
import BurnAfterRead.Time.Timestamp

/-!
# Log lines

What the running service tells about itself, for people or as JSON.
-/

namespace BurnAfterRead.CommandLine

structure LogEntry where
  time : Instant
  message : String
  fields : List (String × String) := []
  deriving DecidableEq, Repr

/-- The line of a log entry. -/
def LogEntry.line (e : LogEntry) : LogFormat → String
  | .text =>
    let fields := e.fields.map fun (name, value) => name ++ "=" ++ value
    " ".intercalate ([e.time.text, " INFO", e.message] ++ fields)
  | .json =>
    String.ofList (Json.writeObject
      ([("timestamp", .text e.time.text), ("level", .text "INFO"), ("message", .text e.message)] ++
        e.fields.map fun (name, value) => (name, .text value)))

end BurnAfterRead.CommandLine
