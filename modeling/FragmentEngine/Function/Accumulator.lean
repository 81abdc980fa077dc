import FragmentEngine.Value.Number
/-!
# Accumulators

The running state of one aggregate call: it is fed the arguments of each row of a group and rolled up at the
end of the group.
-/

namespace FragmentEngine

inductive Accumulator where
  | count (rows : Nat)
  | sum (total : Binary64)
  | average (total : Binary64) (rows : Nat)
  | minimum (current : Option Binary64)
  | maximum (current : Option Binary64)
  deriving DecidableEq

namespace Accumulator

/-- The state before the first row. -/
def fresh : Accumulator → Accumulator
  | .count _ => .count 0
  | .sum _ => .sum Binary64.zero
  | .average _ _ => .average Binary64.zero 0
  | .minimum _ => .minimum none
  | .maximum _ => .maximum none

/-- The only argument as a number. -/
def number (function : String) : List Value → Except Error Binary64
  | v :: _ => v.toDouble function
  | [] => .error (.exec (.argumentCount function (.exactly 1) 0))

/-- The state after one more row. -/
def update (args : List Value) : Accumulator → Except Error Accumulator
  | .count rows => .ok (.count (rows + 1))
  | .sum total => do
    let x ← number "oph_sum" args
    return .sum (total.add x)
  | .average total rows => do
    let x ← number "oph_avg" args
    return .average (total.add x) (rows + 1)
  | .minimum current => do
    let x ← number "oph_min" args
    return .minimum (some (match current with
      | none => x
      | some y => y.min x))
  | .maximum current => do
    let x ← number "oph_max" args
    return .maximum (some (match current with
      | none => x
      | some y => y.max x))

/-- The value of the rows so far. -/
def result : Accumulator → Except Error Value
  | .count rows => .ok (.long (Int64.ofNat rows))
  | .sum total => .ok (.double total)
  | .average total rows =>
    if rows = 0 then .error (.exec (.emptyGroup "oph_avg"))
    else .ok (.double (total.div (Binary64.ofInt rows)))
  | .minimum (some x) | .maximum (some x) => .ok (.double x)
  | .minimum none | .maximum none => .error (.exec (.emptyGroup "oph_min/oph_max"))

theorem fresh_fresh (a : Accumulator) : a.fresh.fresh = a.fresh := by cases a <;> rfl

theorem fresh_of_update {a b : Accumulator} {args : List Value} (h : a.update args = .ok b) :
    b.fresh = a.fresh := by
  cases a <;> simp only [update, bind, Except.bind] at h
  case count => cases h; rfl
  all_goals
    split at h
    · cases h
    · cases h; rfl

end Accumulator

end FragmentEngine
