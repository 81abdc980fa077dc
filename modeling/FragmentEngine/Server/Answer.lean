import FragmentEngine.Json.Printer
import FragmentEngine.Server.Config
import FragmentEngine.Server.Table
/-!
# Answers

The text sent to a client for a result or an error, in the format it has chosen. Every answer ends in a line
feed. A query that was abandoned has none, nor has a result that cannot be drawn.
-/

namespace FragmentEngine

/-- A document on a line of its own. -/
def Json.line (j : Json) : String := s!"{j.compact}\n"

/-- The text of an error. -/
def Error.answer (e : Error) : OutputFormat → String
  | .table => s!"Error [{e.kind.name}]: {e.message}\n"
  | .json =>
    Json.line (.object [("kind", .string e.kind.name), ("message", .string e.message), ("status", .string "error")])

/-- The text of a result. -/
def QueryResult.answer (r : QueryResult) (format : OutputFormat) : Except Error String :=
  match r.message, format with
  | some message, .table => .ok s!"{message}\n"
  | some message, .json =>
    .ok <| Json.line
      (.object
        [("affected_rows", Json.ofNat r.affectedRows), ("message", .string message), ("status", .string "success")])
  | none, .json => .ok r.toJson.line
  | none, .table =>
    if r.columns.isEmpty then .ok "OK\n" else Table.render r.columns (r.rows.map fun row => row.map Value.display)

/-- The text of what a query ended with; `.overflow` if there is none. -/
def answered (outcome : Except Error QueryResult) (format : OutputFormat) : Except Error String :=
  match outcome with
  | .ok result => result.answer format
  | .error .overflow => .error .overflow
  | .error e => .ok (e.answer format)

end FragmentEngine
