import FragmentEngine.Expr.Evaluator
import FragmentEngine.Expr.Parser
import FragmentEngine.Fragment.Basic
import FragmentEngine.Select.Source
/-!
# Inserted rows

Records from value texts. A text is a placeholder, a quoted string, a long or a double; anything else is taken
literally for STRING and BLOB columns and evaluated as an expression without variables for the others.
-/

namespace FragmentEngine.Insert

/-- The value that a text stands for in a column of a given type. -/
def valueOf (context : Context) (type : FieldType) (text : String) : Except Error Value :=
  let t := Text.trim text.toList
  match Argument.placeholder? t with
  | some position => Argument.valueAt context.args position
  | none =>
    if Sections.isQuoted t then .ok (.str (String.ofList (Sections.unquote t)))
    else match Decimal.long? t with
    | some n => .ok (.long n)
    | none =>
      match Decimal.double? t with
      | some x => .ok (.double x)
      | none =>
        match type with
        | .string | .blob => .ok (.str (String.ofList t))
        | .long | .real => do
          let e ← Expr.parse (String.ofList t)
          e.evaluate (SymbolTable.new context.registry context.headroom)

/-- Refuses column names other than those of the schema; no names at all are fine. -/
def checkNames (schema : Schema) (names : List String) : Except Error Unit :=
  if names.isEmpty ∨ names = schema.names then .ok ()
  else .error (.exec (.insertFields names schema.names))

/-- Encodes one value text for each column. -/
def encodeRow (context : Context) (schema : Schema) (values : List String) : Except Error Record := do
  let cells ← (schema.fields.zip values).mapM fun (field, text) => do
    Cell.encode field.type (← valueOf context field.type text)
  return ⟨cells⟩

/-- The record of one row. -/
def record (context : Context) (schema : Schema) (names values : List String) : Except Error Record := do
  checkNames schema names
  if values.length ≠ schema.width then throw (.exec (.insertCount schema.width values.length))
  encodeRow context schema values

/-- The values cut into rows of a given width; what does not fill a row is dropped. -/
def rowsOf (width : Nat) (count : Nat) (values : List String) : List (List String) :=
  (List.range count).map fun i => (values.drop (i * width)).take width

/-- The records of several rows, given by one list of values. -/
def records (context : Context) (schema : Schema) (names values : List String) :
    Except Error (List Record) := do
  checkNames schema names
  let width := schema.width
  if width = 0 ∨ values.isEmpty ∨ values.length % width ≠ 0 then
    throw (.exec (.multiInsertCount values.length width))
  (rowsOf width (values.length / width) values).mapM (encodeRow context schema)

end FragmentEngine.Insert
