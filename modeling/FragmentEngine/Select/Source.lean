import FragmentEngine.Fragment.Basic
import FragmentEngine.Function.Registry
import FragmentEngine.Request.Argument
import FragmentEngine.Text.Split
/-!
# Sources and selections

The input fragments of a query and the rows chosen from them. Several inputs are joined by position: entry `k`
of a selection stands for row `offsets[i] + rows[k]` of each input `i`.
-/

namespace FragmentEngine

structure Source where
  fragment : Fragment
  alias? : Option String
  /-- The database the fragment was loaded from. -/
  db? : Option String
  deriving DecidableEq

/-- Whether a qualifier names this source: by alias, by fragment or by database and fragment. -/
def Source.answersTo (s : Source) (qualifier : String) : Bool :=
  s.alias? == some qualifier || s.fragment.name == qualifier ||
    match s.db?, Text.splitOnce '.' qualifier.toList with
    | some db, some (a, b) => db == String.ofList a && s.fragment.name == String.ofList b
    | _, _ => false

structure Selection where
  /-- What is added to an entry to get a row of each source. -/
  offsets : List Nat
  rows : List Nat
  deriving DecidableEq

namespace Selection

/-- All rows of a single source. -/
def full (rowCount : Nat) : Selection := ⟨[0], List.range rowCount⟩

def size (s : Selection) : Nat := s.rows.length

/-- The row of a source for entry `k`. -/
def row (s : Selection) (source k : Nat) : Nat := s.offsets.getD source 0 + s.rows.getD k 0

end Selection

/-- What the evaluation of a query depends on besides its rows. -/
structure Context where
  registry : Registry
  args : List Argument
  /-- Free slots of a symbol table beyond those of the variables. -/
  headroom : Nat

end FragmentEngine
