import FragmentEngine.Catalog.Basic
import FragmentEngine.Json.Fields
import FragmentEngine.Json.Printer
import FragmentEngine.Json.Reader
/-!
# Catalogs as JSON

The file form of a catalog: two objects that hold the databases and the fragments by their names.
-/

namespace FragmentEngine

/-! ## Column types -/

/-- The name of a column type in catalogs. -/
def FieldType.formName : FieldType → String
  | .long => "Long"
  | .real => "Real"
  | .string => "String"
  | .blob => "Blob"

def FieldType.ofFormName? (name : String) : Option FieldType :=
  [FieldType.long, .real, .string, .blob].find? (·.formName == name)

/-- The type that a document names, alone or as the only member of an object. -/
def FieldType.ofJson? : Json → Option FieldType
  | .string name => ofFormName? name
  | .object [(name, .null)] => ofFormName? name
  | _ => none

/-! ## Schemas -/

namespace ColumnEntry

def toJson (e : ColumnEntry) : Json :=
  .object
    [("name", .string e.field.name), ("field_type", .string e.field.type.formName),
      ("position", Json.ofNat e.position), ("identifier", .bool e.field.identifier)]

def ofJson? (j : Json) : Option ColumnEntry :=
  match j.fields? ["name", "field_type", "position", "identifier"] with
  | some [some name, some type, some position, some identifier] => do
    return ⟨⟨← name.text?, ← FieldType.ofJson? type, ← identifier.flag?⟩, ← position.count?⟩
  | _ => none

end ColumnEntry

namespace SchemaEntry

def toJson (e : SchemaEntry) : Json :=
  .object [("fields", .array (e.columns.map ColumnEntry.toJson)), ("name_to_index", Json.ofMap Json.ofNat e.positions)]

def ofJson? (j : Json) : Option SchemaEntry :=
  match j.fields? ["fields", "name_to_index"] with
  | some [some columns, some positions] => do
    return ⟨← columns.list? ColumnEntry.ofJson?, ← positions.map? Json.count?⟩
  | _ => none

end SchemaEntry

/-! ## Entries -/

namespace DatabaseEntry

def toJson (e : DatabaseEntry) : Json :=
  .object
    [("name", .string e.name), ("fragments", .array (e.fragments.map Json.string)),
      ("row_count", Json.ofNat e.rowCount), ("size_bytes", Json.ofNat e.size)]

def ofJson? (j : Json) : Option DatabaseEntry :=
  match j.fields? ["name", "fragments", "row_count", "size_bytes"] with
  | some [some name, some fragments, some rowCount, some size] => do
    return ⟨← name.text?, ← fragments.list? Json.text?, ← rowCount.count?, ← size.count?⟩
  | _ => none

end DatabaseEntry

namespace FragmentEntry

def toJson (e : FragmentEntry) : Json :=
  .object
    [("name", .string e.name), ("db", .string e.db), ("device", Json.ofOption Json.string e.device),
      ("schema", e.schema.toJson), ("row_count", Json.ofNat e.rowCount), ("size_bytes", Json.ofNat e.size)]

def ofJson? (j : Json) : Option FragmentEntry :=
  match j.fields? ["name", "db", "device", "schema", "row_count", "size_bytes"] with
  | some [some name, some db, device, some schema, some rowCount, some size] => do
    return ⟨← name.text?, ← db.text?, ← Json.optional? Json.text? device, ← SchemaEntry.ofJson? schema,
      ← rowCount.count?, ← size.count?⟩
  | _ => none

end FragmentEntry

/-! ## Catalogs -/

namespace Catalog

def toJson (c : Catalog) : Json :=
  .object
    [("dbs", Json.ofMap DatabaseEntry.toJson c.databases), ("frags", Json.ofMap FragmentEntry.toJson c.fragments)]

def ofJson? (j : Json) : Option Catalog :=
  match j.fields? ["dbs", "frags"] with
  | some [some databases, some fragments] => do
    return ⟨← databases.map? DatabaseEntry.ofJson?, ← fragments.map? FragmentEntry.ofJson?⟩
  | _ => none

/-- The text of a catalog file. -/
def render (c : Catalog) : String := c.toJson.indented

/-- The catalog of a file's text. -/
def read (text : String) : Except Error Catalog :=
  match (Json.parse text.toList).bind ofJson? with
  | some c => .ok c
  | none => .error (.catalog .malformed)

end Catalog

end FragmentEngine
