import FragmentEngine.Select.Binding
/-!
# WHERE and the positional join

The rows that satisfy a condition. Several sources are first aligned on their identifier columns, which have to
count up without gaps: entry `k` is the `k`-th identifier that all of them share.
-/

namespace FragmentEngine

/-- Checks that the identifiers from row `row` on count up from `first`. The identifier expected in a row is a
long before it is compared. -/
def checkConsecutive (fragment : String) (first : Int) (row : Nat) : List Long → Except Error Unit
  | [] => .ok ()
  | id :: rest =>
    match Long.ofInt? (first + row) with
    | none => .error .overflow
    | some expected =>
      if id = expected then checkConsecutive fragment first (row + 1) rest
      else .error (.exec (.identifiersBroken fragment row))

/-- The first and last identifier of a fragment, which have to be consecutive in row order; none if it has no
rows. -/
def Fragment.idRange (f : Fragment) : Except Error (Option (Long × Long)) := do
  let ids ← f.ids
  match ids.head?, ids.getLast? with
  | some first, some last => do
    checkConsecutive f.name first.toInt 0 ids
    return some (first, last)
  | _, _ => return none

namespace Selection

/-- No entry at all, for `n` sources. -/
def empty (n : Nat) : Selection := ⟨List.replicate n 0, []⟩

/-- The entries for the identifiers that all ranges share. -/
def sharing (ranges : List (Long × Long)) : Selection :=
  let low := (ranges.map fun r => r.1.toInt).max?.getD 0
  let high := (ranges.map fun r => r.2.toInt).min?.getD (-1)
  if high < low then empty ranges.length
  else ⟨ranges.map fun r => (low - r.1.toInt).toNat, List.range (high - low + 1).toNat⟩

/-- The entries of several sources, aligned on their identifiers. -/
def aligned (sources : List Source) : Except Error Selection := do
  let ranges ← sources.mapM fun s => s.fragment.idRange
  match ranges.mapM id with
  | some ranges => return sharing ranges
  | none => return empty sources.length

/-- The entries among which a condition chooses. -/
def candidates (sources : List Source) (hasCondition : Bool) : Except Error Selection :=
  match sources with
  | [] => .error (.exec .noSources)
  | [only] => .ok (full only.fragment.rowCount)
  | _ => if hasCondition then aligned sources else .error (.exec .whereRequired)

/-- Whether entry `k` satisfies a condition. -/
def admits (context : Context) (sources : List Source) (binder : RowBinder) (condition : Expr)
    (candidates : Selection) (k : Nat) : Except Error Bool := do
  let table ← binder.table context sources candidates k
  let v ← condition.evaluate table
  v.isTruthy "WHERE clause"

/-- The entries that satisfy a condition, all of them if there is none. -/
def filter (context : Context) (sources : List Source) (condition : Option Expr) : Except Error Selection := do
  if condition.any (·.isAggregating context.registry) then throw (.exec .aggregateInWhere)
  let candidates ← candidates sources condition.isSome
  match condition with
  | none => return candidates
  | some e =>
    let binder ← RowBinder.bind e sources context.args
    let kept ← candidates.rows.zipIdx.filterM fun (_, k) => admits context sources binder e candidates k
    return { candidates with rows := kept.map Prod.fst }

end Selection

end FragmentEngine
