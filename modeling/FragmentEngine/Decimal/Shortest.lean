import FragmentEngine.Binary64
/-!
# Shortest decimal digits

The fewest digits that read back as a given binary number. Every decimal inside the number's rounding
interval reads back as it, so the digits come from the coarsest decimal grid with a point in the interval;
of the points on that grid the nearest to the number is taken.
-/

namespace FragmentEngine.Decimal

/-- The positive number `digits * 10 ^ exponent`. -/
structure Scaled where
  digits : Nat
  exponent : Int
  deriving DecidableEq

/-- What is taken when two decimals are equally near. -/
inductive Tie where
  | up
  | even
  deriving DecidableEq

/-- A number and the ends of its rounding interval, all three over the denominator `den`. -/
structure Interval where
  low : Nat
  value : Nat
  high : Nat
  den : Nat
  /-- Whether the ends round to the number too. -/
  closed : Bool

/-- The rounding interval of a positive finite number. Below a power of two the numbers lie twice as dense, so
there the lower half is half as long. -/
def Interval.of (x : Binary64) : Interval :=
  let m := x.significand
  let e := x.exponent - 2
  let scale := Nat.pow 2 e.toNat
  let dense := x.fraction == 0 && 1 < x.biased
  { low := (4 * m - if dense then 1 else 2) * scale
    value := 4 * m * scale
    high := (4 * m + 2) * scale
    den := Nat.pow 2 (-e).toNat
    closed := m % 2 == 0 }

/-- Whether `n / den` lies between the ends. -/
def Interval.contains (i : Interval) (n scale : Nat) : Bool :=
  if i.closed then i.low * scale ≤ n && n ≤ i.high * scale
  else i.low * scale < n && n < i.high * scale

/-- The multiple of `10 ^ e` in the interval that is nearest to the number. -/
def Interval.onGrid (i : Interval) (tie : Tie) (e : Int) : Option Nat :=
  let unit := i.den * Nat.pow 10 e.toNat
  let scale := Nat.pow 10 (-e).toNat
  let below := i.value * scale / unit
  let left := 2 * (i.value * scale % unit)
  match i.contains (below * unit) scale, i.contains ((below + 1) * unit) scale with
  | true, true =>
    if left < unit then some below
    else if unit < left then some (below + 1)
    else match tie with
      | .up => some (below + 1)
      | .even => some (below + below % 2)
  | true, false => some below
  | false, true => some (below + 1)
  | false, false => none

/-- The nearest point on the first grid, from `10 ^ e` down, that meets the interval. -/
def Interval.coarsest (i : Interval) (tie : Tie) : Nat → Int → Scaled
  | 0, e => ⟨0, e⟩
  | fuel + 1, e =>
    match i.onGrid tie e with
    | some d => ⟨d, e⟩
    | none => i.coarsest tie fuel (e - 1)

/-- The shortest digits of the magnitude of a finite number. -/
def shortest (tie : Tie) (x : Binary64) : Scaled :=
  if x.isZero then ⟨0, 0⟩
  else
    let i := Interval.of x
    let top := (Nat.toDigits 10 (i.high / i.den)).length
    i.coarsest tie (top + 400) top

example : shortest .even ⟨0x3FB999999999999A⟩ = ⟨1, -1⟩ ∧ shortest .even ⟨1⟩ = ⟨5, -324⟩ := by decide +kernel

example : shortest .up ⟨0x4310000000000001⟩ = ⟨11258999068426243, -1⟩ ∧
    shortest .even ⟨0x4310000000000001⟩ = ⟨11258999068426242, -1⟩ := by decide +kernel

end FragmentEngine.Decimal
