import FragmentEngine.Decimal.Numeral
import FragmentEngine.Fragment.Basic
import FragmentEngine.Text.Split
/-!
# Imports

Fragments made from text files with one row of numbers on each line. Lines without any but blanks are skipped;
numbers are separated by commas and blanks. A row has an identifier, counted up from a first one, and the
packed numbers of its line.
-/

namespace FragmentEngine

/-- A dimension of the imported array, with the range of its columns. -/
structure Dimension where
  type : String
  index : Nat
  /-- The first column, counted from 1. -/
  start : Long
  /-- The last column; zero or less is the end of the line. -/
  stop : Long
  deriving DecidableEq

structure Import where
  /-- The file's path as it was given. -/
  source : String
  /-- The name of the column of packed numbers. -/
  measure : String
  /-- How many rows are wanted, all if absent. -/
  rowCount : Option Nat
  firstId : Long
  /-- Only the first one restricts the columns. -/
  dimensions : List Dimension
  deriving DecidableEq

namespace Import

/-- The numbers of a line; `line` is counted from 1 among those that are not blank. -/
def numbers (line : Nat) (cs : List Char) : Except Error (List Binary64) :=
  let words := (Text.splitAll (fun c => c == ',' || Text.isBlank c) cs).filter (!·.isEmpty)
  words.mapM fun word =>
    match Decimal.double? word with
    | some x => .ok x
    | none => .error (.store (.notANumber line (String.ofList word)))

/-- The numbers inside the range of a dimension. -/
def columns (xs : List Binary64) : Option Dimension → Except Error (List Binary64)
  | none => .ok xs
  | some d =>
    let first := max d.start.toInt 1
    let last := if d.stop.toInt ≤ 0 then (xs.length : Int) else d.stop.toInt
    if last < first ∨ xs.length < last then
      .error (.store (.dimensionRange first.toNat last.toNat xs.length))
    else .ok ((xs.take last.toNat).drop (first.toNat - 1))

/-- Numbers as consecutive groups of eight bytes. -/
def pack (xs : List Binary64) : Bytes := xs.flatMap Binary64.toBytes

def schema (measure : String) : Schema := ⟨[⟨"id_dim", .long, true⟩, ⟨measure, .blob, false⟩]⟩

/-- The identifier and the packed numbers of line `i`, counted from 0. -/
def row (r : Import) (i : Nat) (cs : List Char) : Except Error (List Value) := do
  let kept ← columns (← numbers (i + 1) cs) r.dimensions.head?
  match Long.ofInt? (r.firstId.toInt + i) with
  | some id => return [.long id, .binary (pack kept)]
  | none => throw .overflow

/-- The lines of a text that have more than blanks. -/
def filledLines (text : String) : List (List Char) :=
  (Text.lines text.toList).filter fun line => !(Text.trim line).isEmpty

/-- The lines that become rows. -/
def wantedLines (r : Import) (text : String) : List (List Char) :=
  match r.rowCount with
  | none => filledLines text
  | some n => (filledLines text).take n

/-- The fragment made from the text of a file. -/
def ofText (r : Import) (text : String) : Except Error Fragment := do
  let f ← (r.wantedLines text).zipIdx.foldlM
    (fun f (line, i) => do f.pushValues (← r.row i line)) (Fragment.empty r.measure (schema r.measure))
  match r.rowCount with
  | some n => if f.rowCount < n then throw (.store (.sourceTooShort r.source f.rowCount n))
  | none => pure ()
  return f

end Import

end FragmentEngine
