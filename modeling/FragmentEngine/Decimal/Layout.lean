import FragmentEngine.Decimal.Shortest
/-!
# Layout of decimal numbers

How the shortest digits of a number are written down: where the point goes, when an exponent is used and how
whole numbers, infinities and NaNs look.
-/

namespace FragmentEngine.Decimal

structure Layout where
  /-- The places of the point, counted from the first digit, that are written without an exponent; all of
  them if absent. -/
  positional : Option (Int × Int)
  /-- Whether a whole number ends in a point and a zero. -/
  pointZero : Bool
  tie : Tie
  infinity : List Char
  nan : List Char

def zeros (n : Nat) : List Char := List.replicate n '0'

/-- Digits and a power of ten, without an exponent. -/
def Layout.point (l : Layout) (ds : List Char) (e : Int) : List Char :=
  let whole := ds.length + e
  if 0 ≤ e then ds ++ zeros e.toNat ++ if l.pointZero then ['.', '0'] else []
  else if 0 < whole then ds.take whole.toNat ++ '.' :: ds.drop whole.toNat
  else '0' :: '.' :: zeros (-whole).toNat ++ ds

/-- Digits and a power of ten, with the point after the first digit and a signed exponent. -/
def scientific (ds : List Char) (e : Int) : List Char :=
  let power := ds.length + e - 1
  let exponent := (if power < 0 then '-' else '+') :: Nat.toDigits 10 power.natAbs
  match ds with
  | [] => []
  | [d] => d :: 'e' :: exponent
  | d :: rest => d :: '.' :: rest ++ 'e' :: exponent

/-- The text of a number. -/
def Layout.write (l : Layout) (x : Binary64) : List Char :=
  if x.isNaN then l.nan
  else
    let sign := if x.isNegative then ['-'] else []
    if x.isInfinite then sign ++ l.infinity
    else
      let s := shortest l.tie x
      let ds := Nat.toDigits 10 s.digits
      let place := ds.length + s.exponent
      let short := match l.positional with
        | none => true
        | some (least, greatest) => x.isZero || (least ≤ place && place ≤ greatest)
      sign ++ if short then l.point ds s.exponent else scientific ds s.exponent

/-- Numbers shown to a reader: never an exponent, and no point in a whole number. -/
def plain : Layout := ⟨none, false, .up, ['i', 'n', 'f'], ['N', 'a', 'N']⟩

/-- Numbers in JSON texts: up to sixteen whole digits and up to four zeros after the point are written out. -/
def json : Layout := ⟨some (-4, 16), true, .even, [], []⟩

/-- The shown text of a number. -/
def display (x : Binary64) : String := String.ofList (plain.write x)

example : display ⟨0x4044000000000000⟩ = "40" ∧ display ⟨0x8000000000000000⟩ = "-0" := by decide +kernel

example : display ⟨0x3EE4F8B588E368F1⟩ = "0.00001" ∧ display ⟨0xFFF0000000000000⟩ = "-inf" := by decide +kernel

example : String.ofList (json.write ⟨0x4376345785D8A000⟩) = "1e+17" ∧
    String.ofList (json.write ⟨0x3EB92A737110E454⟩) = "1.5e-6" := by decide +kernel

end FragmentEngine.Decimal
