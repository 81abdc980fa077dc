import FragmentEngine.Decimal.Whole
import FragmentEngine.Select.Binding
/-!
# ORDER BY, LIMIT and OFFSET

Sorting by one numeric column, ascending and stable, and cutting a window out of the result. LONG columns are
ordered as integers and REAL columns by the total order of doubles.
-/

namespace FragmentEngine

/-! ## Sorting -/

/-- Puts an item before the first one whose key is not smaller. -/
def insertByKey {α : Type} (x : Int × α) : List (Int × α) → List (Int × α)
  | [] => [x]
  | y :: rest => if x.1 ≤ y.1 then x :: y :: rest else y :: insertByKey x rest

/-- The items in the order of their keys; items of equal keys keep theirs. -/
def sortByKey {α : Type} (items : List (Int × α)) : List (Int × α) := items.foldr insertByKey []

/-- The place of a cell in the order of its column. -/
def Fragment.sortKey (f : Fragment) (row column : Nat) : Except Error Int := do
  let v ← f.value row column
  match f.schema.fields[column]? with
  | none => throw (.exec (.noRecordField column))
  | some field =>
    match field.type with
    | .long => return (← v.toLong "ORDER BY").toInt
    | .real => return (← v.toDouble "ORDER BY").totalRank
    | type => throw (.exec (.orderType type))

/-- The selection in the order of a named column, which has to be numeric even if no row is selected. -/
def Selection.orderBy (s : Selection) (field : String) (sources : List Source) : Except Error Selection := do
  let (source, column) ← resolveField field sources
  match sources[source]? with
  | none => throw (.exec .noSources)
  | some input =>
    let keyed ← s.rows.zipIdx.mapM fun (row, k) => do
      return (← input.fragment.sortKey (s.row source k) column, row)
    if keyed.isEmpty ∧ (input.fragment.schema.fields[column]?).any (!·.type.isNumeric) then
      throw (.exec (.orderNotNumeric field))
    return { s with rows := (sortByKey keyed).map Prod.snd }

/-- The fragment in the order of a named column. -/
def Fragment.orderBy (f : Fragment) (field : String) : Except Error Fragment := do
  let column ← f.column field
  let keyed ← (List.range f.rowCount).mapM fun row => do return (← f.sortKey row column, row)
  f.reorder ((sortByKey keyed).map Prod.snd)

/-! ## Windows -/

/-- A window of a selection; a limit of zero leaves the end open. -/
structure Window where
  offset : Nat
  limit : Nat
  deriving DecidableEq

namespace Window

def bound (text : String) : Except Error Nat :=
  match Decimal.count? (Text.trim text.toList) with
  | some n => .ok n
  | none => .error (.parse (.invalidLimit text))

/-- Reads `limit`, or `offset` and `limit`. -/
def parse (texts : List String) : Except Error (Option Window) :=
  match texts with
  | [] => .ok none
  | [limit] => do return some ⟨0, ← bound limit⟩
  | [offset, limit] => do return some ⟨← bound offset, ← bound limit⟩
  | _ => .error (.parse (.limitCount texts.length))

/-- The entries inside the window. -/
def apply (w : Window) (s : Selection) : Selection :=
  let rest := s.rows.drop w.offset
  { s with rows := if w.limit = 0 then rest else rest.take w.limit }

end Window

end FragmentEngine
