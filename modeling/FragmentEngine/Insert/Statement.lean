import FragmentEngine.Fragment.Basic
/-!
# Running statements

A fragment under construction. It collects rows over a declared number of runs and is complete after the last
of them, or after a run that is declared final.
-/

namespace FragmentEngine

structure Statement where
  db : String
  device : Option String
  fragment : Fragment
  totalRuns : Nat
  currentRun : Nat
  /-- Encoded size of the rows received. -/
  size : Nat
  /-- Rows received. -/
  carriedRows : Nat
  deriving DecidableEq

namespace Statement

/-- A statement that has received nothing yet. -/
def start (db name : String) (device : Option String) (schema : Schema) (runs : Nat) : Statement :=
  ⟨db, device, Fragment.empty name schema, runs, 0, 0, 0⟩

def isComplete (s : Statement) : Bool := s.totalRuns ≤ s.currentRun

/-- Takes in records one by one. A record of the wrong width is counted in the size but not kept, and stops
the run. -/
def take : List Record → Statement → Except Error Unit × Statement
  | [], s => (.ok (), s)
  | r :: rest, s =>
    let s := { s with size := s.size + r.size }
    match s.fragment.push r with
    | .ok f => take rest { s with fragment := f }
    | .error e => (.error e, s)

/-- Takes in the records of one run, and tells whether it was the last. What a failing run has taken in stays. -/
def append (s : Statement) (records : List Record) (final : Bool) : Except Error Bool × Statement :=
  if s.isComplete then (.error (.exec (.statementComplete s.fragment.name s.totalRuns)), s)
  else
    let s := { s with currentRun := s.currentRun + 1 }
    match take records s with
    | (.ok (), s) =>
      (.ok (final || s.currentRun == s.totalRuns), { s with carriedRows := s.fragment.rowCount })
    | (.error e, s) => (.error e, s)

end Statement

end FragmentEngine
