import Std.Data.ExtTreeMap
import FragmentEngine.Fragment.Basic
/-!
# Catalog entries

What a catalog records of a database and of a fragment: names, columns, and how many rows and encoded bytes
there are.
-/

namespace FragmentEngine

structure DatabaseEntry where
  name : String
  /-- The names of its fragments in the order they were added. -/
  fragments : List String
  rowCount : Nat
  size : Nat
  deriving DecidableEq

/-- A database without fragments. -/
def DatabaseEntry.empty (name : String) : DatabaseEntry := ⟨name, [], 0, 0⟩

/-- A column and its recorded position. -/
structure ColumnEntry where
  field : Field
  position : Nat
  deriving DecidableEq

structure SchemaEntry where
  columns : List ColumnEntry
  /-- The position that each name stands for. -/
  positions : Std.ExtTreeMap String Nat compare

namespace SchemaEntry

/-- The record of a schema; a name that occurs twice stands for its last column. -/
def ofSchema (s : Schema) : SchemaEntry where
  columns := s.fields.zipIdx.map fun (f, i) => ⟨f, i⟩
  positions := Std.ExtTreeMap.ofList s.names.zipIdx compare

/-- The columns of a record as a schema. -/
def toSchema (e : SchemaEntry) : Schema := ⟨e.columns.map ColumnEntry.field⟩

theorem toSchema_ofSchema (s : Schema) : (ofSchema s).toSchema = s := by
  simp [ofSchema, toSchema, Function.comp_def]

end SchemaEntry

structure FragmentEntry where
  name : String
  db : String
  /-- The device the fragment was written to. -/
  device : Option String
  schema : SchemaEntry
  rowCount : Nat
  size : Nat

/-- The record of a stored fragment. -/
def FragmentEntry.describe (db : String) (device : Option String) (f : Fragment) : FragmentEntry where
  name := f.name
  db := db
  device := device
  schema := SchemaEntry.ofSchema f.schema
  rowCount := f.rowCount
  size := f.size

end FragmentEngine
