import FragmentEngine.Select.Join
import FragmentEngine.Select.Ordering
import FragmentEngine.Select.Projection
/-!
# Select requests

A select keeps the entries that satisfy its condition, orders them, cuts its window, groups what is left and
projects it into a new fragment.
-/

namespace FragmentEngine

structure SelectRequest where
  /-- The name of the output fragment. -/
  name : String
  fields : List String
  aliases : List String
  condition : Option String
  group : List String
  order : Option String
  window : Option Window
  sequentialId : Option Long

namespace SelectRequest

/-- The entries that a select shows, in order. -/
def selection (r : SelectRequest) (context : Context) (sources : List Source) (condition : Option Expr) :
    Except Error Selection := do
  let kept ← Selection.filter context sources condition
  let ordered ← match r.order with
    | some field => kept.orderBy field sources
    | none => pure kept
  return match r.window with
    | some w => w.apply ordered
    | none => ordered

/-- The output fragment of a select. -/
def execute (r : SelectRequest) (context : Context) (sources : List Source) : Except Error Fragment := do
  let condition ← r.condition.mapM Expr.parse
  let groupBy ← Group.parse r.group
  let selection ← r.selection context sources condition
  let groups ← groupBy.mapM (Group.ofSelection context sources selection)
  let p : Projection := ⟨r.name, r.fields, r.aliases, r.sequentialId, groupBy⟩
  p.project context sources selection groups

end SelectRequest

end FragmentEngine
