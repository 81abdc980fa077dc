import FragmentEngine.Long
/-!
# Whole numbers in decimal

Writing and reading integers. A number to be read is a run of ASCII digits after at most one sign, and it has
to fit the range asked for.
-/

namespace FragmentEngine.Decimal

/-- The digits of a natural number. -/
def digits (n : Nat) : List Char := Nat.toDigits 10 n

/-- The number written by a run of digits, most significant first, after the number `acc`. -/
def foldDigits (acc : Nat) (cs : List Char) : Nat := cs.foldl (fun n c => 10 * n + (c.toNat - 48)) acc

/-- Reads a run of one or more digits. -/
def natural? (cs : List Char) : Option Nat :=
  if !cs.isEmpty && cs.all Char.isDigit then some (foldDigits 0 cs) else none

/-- Reads digits after an optional plus sign. -/
def unsigned? (cs : List Char) : Option Nat :=
  match cs with
  | '+' :: rest => natural? rest
  | _ => natural? cs

/-- Reads digits after an optional sign. -/
def signed? (cs : List Char) : Option Int :=
  match cs with
  | '-' :: rest => (natural? rest).map fun n => -(n : Int)
  | _ => (unsigned? cs).map Int.ofNat

/-- Reads a number of at most `bits` bits. -/
def word? (bits : Nat) (cs : List Char) : Option Nat := (unsigned? cs).filter (· < Nat.pow 2 bits)

/-- Reads a count: a number that fits 64 bits. -/
def count? (cs : List Char) : Option Nat := word? 64 cs

/-- Reads a long. -/
def long? (cs : List Char) : Option Long := (signed? cs).bind Long.ofInt?

example : long? "+7".toList = some 7 ∧ long? "-9223372036854775808".toList = some Int64.minValue := by
  decide +kernel

example : long? "9223372036854775808".toList = none ∧ long? "1_0".toList = none ∧ count? "-0".toList = none := by
  decide +kernel

end FragmentEngine.Decimal
