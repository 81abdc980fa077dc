import FragmentEngine.Decimal.Fixed
import FragmentEngine.Expr.Parser
import FragmentEngine.Select.Binding
/-!
# GROUP BY

The entries of a selection grouped by the text of one expression over identifier columns. Groups come in the
order of their first members, members in the order of the selection.
-/

namespace FragmentEngine

structure Group where
  key : String
  /-- Places in the selection. -/
  members : List Nat
  deriving DecidableEq

/-- The text that stands for a value in grouping. -/
def Value.groupKey : Value → Except Error String
  | .double x => .ok (Decimal.fixed 6 x)
  | .long n => .ok (toString n.toInt)
  | .str s => .ok s
  | .binary _ => .error (.exec .groupBinary)

namespace Group

/-- The grouping expression of a request, at most one. -/
def parse (texts : List String) : Except Error (Option Expr) :=
  match texts with
  | [] => .ok none
  | [text] => do return some (← Expr.parse text)
  | _ => .error (.exec (.groupCount texts.length))

/-- Adds an entry to the group of its key, the last place for a new one. -/
def insert (key : String) (k : Nat) : List Group → List Group
  | [] => [⟨key, [k]⟩]
  | g :: rest => if g.key = key then { g with members := g.members ++ [k] } :: rest else g :: insert key k rest

/-- The groups of entries given by their keys. -/
def collect (keyed : List (String × Nat)) : List Group :=
  keyed.foldl (fun groups (key, k) => insert key k groups) []

/-- Refuses a variable that stands for a column other than an identifier column. -/
def checkBinding (sources : List Source) : String × Binding → Except Error Unit
  | (_, .argument _) => .ok ()
  | (name, .field source column) =>
    match sources[source]? with
    | none => .error (.exec .noSources)
    | some s => do
      if (← s.fragment.idColumn) ≠ column then throw (.exec (.groupNotIdentifier name))

/-- The key of entry `k`. -/
def keyOf (context : Context) (sources : List Source) (selection : Selection) (binder : RowBinder) (e : Expr)
    (k : Nat) : Except Error String := do
  let table ← binder.table context sources selection k
  (← e.evaluate table).groupKey

/-- The groups of a selection. -/
def ofSelection (context : Context) (sources : List Source) (selection : Selection) (e : Expr) :
    Except Error (List Group) := do
  if e.isAggregating context.registry then throw (.exec .aggregateInGroup)
  let binder ← RowBinder.bind e sources context.args
  binder.bindings.forM (checkBinding sources)
  let keyed ← (List.range selection.size).mapM fun k => do
    return (← keyOf context sources selection binder e k, k)
  return collect keyed

end Group

end FragmentEngine
