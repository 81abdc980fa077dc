import FragmentEngine.Fragment.Cell
/-!
# Records

One row of a fragment: its cells in the order of the schema.
-/

namespace FragmentEngine

structure Record where
  cells : List Bytes
  deriving DecidableEq

namespace Record

/-- Encodes one value for each type. -/
def ofValues (types : List FieldType) (values : List Value) : Except Error Record := do
  if values.length ≠ types.length then throw (.exec (.recordWidth types.length values.length))
  let cells ← (types.zip values).mapM fun (type, v) => Cell.encode type v
  return ⟨cells⟩

def width (r : Record) : Nat := r.cells.length

/-- The length of a cell, zero if there is none. -/
def cellLength (r : Record) (i : Nat) : Nat := ((r.cells[i]?).map List.length).getD 0

/-- The encoded size: the bytes of all cells together. -/
def size (r : Record) : Nat := r.cells.flatten.length

/-- The bytes of a cell. -/
def cell (r : Record) (i : Nat) : Except Error Bytes :=
  match r.cells[i]? with
  | some bytes => .ok bytes
  | none => .error (.exec (.noRecordField i))

/-- The value of a cell of a given type. -/
def value (r : Record) (i : Nat) (type : FieldType) : Except Error Value := do
  Cell.decode type (← r.cell i)

end Record

end FragmentEngine
