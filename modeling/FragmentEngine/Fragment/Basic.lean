import FragmentEngine.Fragment.Record
import FragmentEngine.Fragment.Schema
/-!
# Fragments

A named table of records held in memory, with the checks that keep every record as wide as the schema.
-/

namespace FragmentEngine

structure Fragment where
  name : String
  schema : Schema
  records : List Record
  /-- Whether it is an intermediate result. -/
  temporary : Bool
  deriving DecidableEq

namespace Fragment

def empty (name : String) (schema : Schema) : Fragment := ⟨name, schema, [], false⟩

def rowCount (f : Fragment) : Nat := f.records.length

/-- The encoded size of all records. -/
def size (f : Fragment) : Nat := f.records.foldr (·.size + ·) 0

/-- Appends a record of the right width. -/
def push (f : Fragment) (r : Record) : Except Error Fragment :=
  if r.width = f.schema.width then .ok { f with records := f.records ++ [r] }
  else .error (.exec (.fragmentWidth f.name f.schema.width r.width))

/-- Encodes and appends a row of values. -/
def pushValues (f : Fragment) (values : List Value) : Except Error Fragment := do
  let r ← Record.ofValues f.schema.types values
  return { f with records := f.records ++ [r] }

/-- The value of a cell. -/
def value (f : Fragment) (row column : Nat) : Except Error Value :=
  match f.records[row]? with
  | none => .error (.exec (.rowOutOfRange row f.name))
  | some r =>
    match f.schema.fields[column]? with
    | none => .error (.exec (.fieldNotFound s!"#{column}" f.name))
    | some field => r.value column field.type

/-- The position of a named column. -/
def column (f : Fragment) (name : String) : Except Error Nat :=
  match f.schema.index? name with
  | some i => .ok i
  | none => .error (.exec (.fieldNotFound name f.name))

/-- The position of the identifier column. -/
def idColumn (f : Fragment) : Except Error Nat :=
  match f.schema.idIndex? with
  | some i => .ok i
  | none => .error (.exec (.noIdentifier f.name))

/-- The identifiers in row order. -/
def ids (f : Fragment) : Except Error (List Long) := do
  let column ← f.idColumn
  (List.range f.rowCount).mapM fun row => do (← f.value row column).toLong "identifier"

/-- The first index that is out of range or occurs a second time. -/
def firstInvalid (count : Nat) (seen : List Nat) : List Nat → Option Nat
  | [] => none
  | i :: rest => if i < count ∧ i ∉ seen then firstInvalid count (i :: seen) rest else some i

/-- The fragment whose row `i` is the old row `order[i]`. -/
def reorder (f : Fragment) (order : List Nat) : Except Error Fragment :=
  if order.length ≠ f.rowCount then .error (.exec .permutationLength)
  else match firstInvalid f.rowCount [] order with
    | some i => .error (.exec (.permutationIndex i))
    | none => .ok { f with records := order.filterMap (f.records[·]?) }

end Fragment

end FragmentEngine
