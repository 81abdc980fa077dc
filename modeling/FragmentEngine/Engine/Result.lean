import FragmentEngine.Fragment.Basic
import FragmentEngine.Json.Basic
import FragmentEngine.Value.Form
/-!
# Query results

What a query answers: rows under column names, or a message with the number of rows written.
-/

namespace FragmentEngine

structure QueryResult where
  columns : List String
  rows : List (List Value)
  /-- The number of rows written. -/
  affectedRows : Nat
  message : Option String
  deriving DecidableEq

namespace QueryResult

def ofMessage (message : String) : QueryResult := ⟨[], [], 0, some message⟩

def written (rows : Nat) (message : String) : QueryResult := ⟨[], [], rows, some message⟩

/-- All values of a fragment. -/
def ofFragment (f : Fragment) : Except Error QueryResult := do
  let rows ← (List.range f.rowCount).mapM fun row => (List.range f.schema.width).mapM (f.value row)
  return ⟨f.schema.names, rows, 0, none⟩

def toJson (r : QueryResult) : Json :=
  .object
    [("columns", .array (r.columns.map Json.string)),
      ("rows", .array (r.rows.map fun row => .array (row.map Value.toJson))),
      ("affected_rows", Json.ofNat r.affectedRows), ("message", Json.ofOption Json.string r.message)]

end QueryResult

end FragmentEngine
