import FragmentEngine.Select.Grouping
/-!
# Projection

The output columns of a select. A column is a literal or an argument repeated for every row, a column of a
source copied byte by byte, or an expression. With groups, aggregates and the grouping expression itself yield
one row for each group; anything else yields one for each member, and every column has to yield the same number
of rows.
-/

namespace FragmentEngine

/-- What an output column shows. -/
inductive Column where
  | literal (v : Value)
  | argument (v : Value)
  | field (source column : Nat)
  | expr (e : Expr)
  deriving DecidableEq

/-- What an expression shows as a column. -/
def Column.ofExpr (context : Context) (sources : List Source) : Expr → Except Error Column
  | .literal v => .ok (.literal v)
  | .variable name => do
    match ← resolveVariable name sources context.args with
    | .argument v => return .argument v
    | .field source column => return .field source column
  | e => .ok (.expr e)

structure Projection where
  /-- The name of the output fragment. -/
  name : String
  fields : List String
  /-- Output names, none or one for each field. -/
  aliases : List String
  /-- What identifier columns are numbered from instead of being copied. -/
  sequentialId : Option Long
  groupBy : Option Expr

/-- A finished column. -/
structure ColumnData where
  field : Field
  cells : List Bytes
  deriving DecidableEq

namespace Projection

/-! ## Columns of values -/

/-- A value repeated for every row. -/
def constantColumn (name : String) (v : Value) (rows : Nat) : Except Error ColumnData := do
  let cell ← Cell.encode v.fieldType v
  return ⟨⟨name, v.fieldType, false⟩, List.replicate rows cell⟩

/-! ## Columns of a source -/

/-- The entries a column shows, in order: the last member of each group for the grouping expression, else all
members. -/
def shownEntries (selection : Selection) (groups : Option (List Group)) (keyed : Bool) : List Nat :=
  match groups with
  | none => List.range selection.size
  | some groups =>
    if keyed then groups.filterMap fun g => g.members.getLast? else groups.flatMap Group.members

/-- The cell of the `row`-th output row when identifiers are numbered from `base`. -/
def sequentialCell (base : Long) (row : Nat) : Except Error Bytes :=
  match Long.ofInt? (base.toInt + row) with
  | some id => .ok id.toBytes
  | none => .error (.exec .sequentialOverflow)

/-- The cell of a source's row. -/
def copiedCell (f : Fragment) (row column : Nat) : Except Error Bytes :=
  match f.records[row]? with
  | some r => r.cell column
  | none => .error (.exec (.rowOutOfRange row f.name))

/-- A column copied from a source, or numbered anew if it is an identifier column. -/
def fieldColumn (p : Projection) (sources : List Source) (selection : Selection) (groups : Option (List Group))
    (keyed : Bool) (source column : Nat) : Except Error ColumnData :=
  match sources[source]? with
  | none => .error (.exec .noSources)
  | some input =>
    match input.fragment.schema.fields[column]? with
    | none => .error (.exec (.noRecordField column))
    | some field => do
      let isId := input.fragment.schema.idIndex? == some column
      let cells ← (shownEntries selection groups keyed).zipIdx.mapM fun (k, row) =>
        match p.sequentialId, isId with
        | some base, true => sequentialCell base row
        | _, _ => copiedCell input.fragment (selection.row source k) column
      return ⟨⟨field.name, field.type, isId⟩, cells⟩

/-! ## Columns of an expression -/

/-- One evaluation of an expression over a group. -/
structure Visit where
  /-- Whether a new group starts here. -/
  starts : Bool
  /-- Whether this is the last member of its group. -/
  last : Bool
  entry : Nat
  deriving DecidableEq

/-- The members of a group in order. -/
def Visit.all (members : List Nat) : List Visit :=
  members.zipIdx.map fun (k, i) => ⟨i == 0, i + 1 == members.length, k⟩

/-- The last member of a group alone. -/
def Visit.lastOnly (members : List Nat) : List Visit :=
  (members.getLast?.map fun k => ⟨true, true, k⟩).toList

/-- The visits of a column; without groups each entry is one by itself. -/
def visits (selection : Selection) (groups : Option (List Group)) (lastOnly : Bool) : List Visit :=
  match groups with
  | none => (List.range selection.size).map fun k => ⟨true, true, k⟩
  | some groups => groups.flatMap fun g => if lastOnly then Visit.lastOnly g.members else Visit.all g.members

/-- The value that a visit emits, and the evaluator after it. -/
def visit (context : Context) (sources : List Source) (selection : Selection) (binder : RowBinder)
    (v : Visit) : StateT GroupEvaluator (Except Error) (Option Value) := fun g => do
  let g := ((if v.starts then g.boundary else g).setLastRow v.last)
  let table ← binder.table context sources selection v.entry
  match g.row table with
  | (.ok (.emit value), g) => return (some value, g)
  | (.ok .suppressed, g) => return (none, g)
  | (.error e, _) => throw e

/-- A column of the values an expression emits; they have the type of the first, REAL if there are none. -/
def exprColumn (context : Context) (sources : List Source) (selection : Selection)
    (groups : Option (List Group)) (keyed : Bool) (name : String) (e : Expr) : Except Error ColumnData := do
  let binder ← RowBinder.bind e sources context.args
  let lastOnly := keyed && !e.isAggregating context.registry
  let emitted ← ((visits selection groups lastOnly).mapM
    (visit context sources selection binder)).run' (GroupEvaluator.new e)
  let values := emitted.filterMap id
  let type := (values.head?.map Value.fieldType).getD .real
  let cells ← values.mapM (Cell.encode type)
  return ⟨⟨name, type, false⟩, cells⟩

/-! ## All columns -/

/-- The column of one field text. -/
def column (p : Projection) (context : Context) (sources : List Source) (selection : Selection)
    (groups : Option (List Group)) (expected : Nat) (text : String) : Except Error ColumnData := do
  let e ← Expr.parse text
  let keyed := p.groupBy == some e
  let name := Text.trimmed text
  match ← Column.ofExpr context sources e with
  | .literal v | .argument v => constantColumn name v expected
  | .field source column => p.fieldColumn sources selection groups keyed source column
  | .expr e => exprColumn context sources selection groups keyed name e

/-- Adds the column of a field text after the finished ones. Names are distinct, and only the first identifier
column stays one. -/
def addColumn (p : Projection) (context : Context) (sources : List Source) (selection : Selection)
    (groups : Option (List Group)) (expected : Nat) (done : List ColumnData) (text : String)
    (alias? : Option String) : Except Error (List ColumnData) := do
  let data ← p.column context sources selection groups expected text
  if data.cells.length ≠ expected then
    throw (.exec (.columnLength text data.cells.length expected))
  let name := alias?.getD data.field.name
  if name ∈ done.map (·.field.name) then throw (.exec (.duplicateColumn name))
  let identifier := data.field.identifier && !done.any (·.field.identifier)
  return done ++ [⟨⟨name, data.field.type, identifier⟩, data.cells⟩]

/-- The fragment whose columns are given, all of the same length. -/
def assemble (name : String) (rows : Nat) (columns : List ColumnData) : Fragment where
  name := name
  schema := ⟨columns.map ColumnData.field⟩
  records := (List.range rows).map fun row => ⟨columns.map fun c => c.cells.getD row []⟩
  temporary := false

/-- The output fragment of a selection. -/
def project (p : Projection) (context : Context) (sources : List Source) (selection : Selection)
    (groups : Option (List Group)) : Except Error Fragment := do
  if p.fields.isEmpty then throw (.missing "field")
  if ¬p.aliases.isEmpty ∧ p.aliases.length ≠ p.fields.length then
    throw (.exec (.fieldAliasCount p.aliases.length p.fields.length))
  let expected := (groups.map List.length).getD selection.size
  let columns ← p.fields.zipIdx.foldlM
    (fun done (text, i) => p.addColumn context sources selection groups expected done text p.aliases[i]?) []
  return assemble p.name expected columns

end Projection

end FragmentEngine
