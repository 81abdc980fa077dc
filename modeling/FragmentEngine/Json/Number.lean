import FragmentEngine.Decimal.Whole
import FragmentEngine.Json.Basic
/-!
# Numbers in JSON texts

The literal of a number and the number it is read as. Whole literals that fit 64 bits are read exactly. For
all others the leading digits are taken in as long as they fit 64 bits, the rest only count, and the power of
ten is applied in one rounded step, or in several when it exceeds the doubles.
-/

namespace FragmentEngine.Json

/-- The parts of a number's literal. -/
structure Literal where
  negative : Bool
  whole : List Char
  /-- The digits after the point, none without a point. -/
  fraction : List Char
  /-- The exponent, if one is written. -/
  power : Option Int
  deriving DecidableEq

namespace Literal

/-! ## Form -/

/-- Reads the exponent after its letter, and the text that follows. -/
def power? (cs : List Char) : Option (Int × List Char) :=
  let (negative, cs) := match cs with
    | '-' :: rest => (true, rest)
    | '+' :: rest => (false, rest)
    | _ => (false, cs)
  match Decimal.natural? (cs.takeWhile Char.isDigit) with
  | none => none
  | some n => some (if negative then -(n : Int) else n, cs.dropWhile Char.isDigit)

/-- Reads what may follow the digits before the exponent. -/
def withPower (l : Literal) (cs : List Char) : Option (Literal × List Char) :=
  match cs with
  | 'e' :: rest | 'E' :: rest => (power? rest).map fun (p, rest) => ({ l with power := some p }, rest)
  | _ => some (l, cs)

/-- Reads what may follow the digits before the point. -/
def withFraction (l : Literal) (cs : List Char) : Option (Literal × List Char) :=
  match cs with
  | '.' :: rest =>
    let digits := rest.takeWhile Char.isDigit
    if digits.isEmpty then none else withPower { l with fraction := digits } (rest.dropWhile Char.isDigit)
  | _ => withPower l cs

/-- Whether digits may stand before a point: there are some, and no zero leads others. -/
def isWhole (digits : List Char) : Bool :=
  match digits with
  | [] => false
  | ['0'] => true
  | d :: _ => d != '0'

/-- Reads a number at the front of a text. -/
def read? (cs : List Char) : Option (Literal × List Char) :=
  let (negative, cs) := match cs with
    | '-' :: rest => (true, rest)
    | _ => (false, cs)
  let whole := cs.takeWhile Char.isDigit
  if isWhole whole then withFraction ⟨negative, whole, [], none⟩ (cs.dropWhile Char.isDigit) else none

/-! ## Value -/

/-- Takes in digits after the number `m` as long as the result fits 64 bits; the digits left over. -/
def absorb (m : Nat) : List Char → Nat × List Char
  | [] => (m, [])
  | c :: rest =>
    let next := 10 * m + (c.toNat - 48)
    if next < Nat.pow 2 64 then absorb next rest else (m, c :: rest)

/-- The largest power of ten among the doubles. -/
def maxPower : Nat := 308

/-- The power of ten `10 ^ e`. -/
def powerOfTen (e : Nat) : Binary64 := Binary64.ofScientific 1 e

/-- The number `x * 10 ^ e`, unless it is too large. -/
def scale (x : Binary64) (e : Int) : Option Binary64 :=
  if 0 ≤ e then
    if e ≤ maxPower then
      let y := x.mul (powerOfTen e.toNat)
      if y.isInfinite then none else some y
    else if x.isZero then some x
    else none
  else if -(maxPower : Int) ≤ e then some (x.div (powerOfTen (-e).toNat))
  else if x.isZero then some x
  else scale (x.div (powerOfTen maxPower)) (e + maxPower)
termination_by (-e).toNat
decreasing_by simp only [maxPower] at *; omega

/-- The number with the digits `m` and the power of ten `e`. An exponent beyond 31 bits is too large unless
it is negative or the digits are zero, and then the number is zero. -/
def float (negative : Bool) (m : Nat) (e : Int) (power : Option Int) : Json :=
  let sign (x : Binary64) : Json := .float (if negative then x.neg else x)
  let p := power.getD 0
  if Nat.pow 2 31 ≤ p.natAbs then
    if m ≠ 0 ∧ 0 < p then .unreadable else sign Binary64.zero
  else match scale (Binary64.ofInt m) (e + p) with
    | some x => sign x
    | none => .unreadable

/-- The document that a literal stands for. -/
def toJson (l : Literal) : Json :=
  let (m, excess) := absorb 0 l.whole
  if l.fraction.isEmpty && l.power.isNone && excess.isEmpty then
    if !l.negative then .int m
    else if m = 0 ∨ Nat.pow 2 63 < m then .float (Binary64.ofInt m).neg
    else .int (-(m : Int))
  else
    let (m, rest) := absorb m l.fraction
    float l.negative m (excess.length - (l.fraction.length - rest.length : Nat)) l.power

end Literal

end FragmentEngine.Json
