import FragmentEngine.Long
/-!
# Binary floating point

Double-precision numbers by their 64 bits, so that NaNs and the two zeros keep their identity. Order and
truncation are read off the bits; sums, products and quotients are those of `Float`.
-/

namespace FragmentEngine

structure Binary64 where
  bits : UInt64
  deriving DecidableEq

namespace Binary64

def ofFloat (x : Float) : Binary64 := ⟨x.toBits⟩

def toFloat (x : Binary64) : Float := Float.ofBits x.bits

/-! ## Fields of the bits -/

def isNegative (x : Binary64) : Bool := decide (Nat.pow 2 63 ≤ x.bits.toNat)

/-- The bits without the sign. -/
def magnitude (x : Binary64) : Nat := x.bits.toNat % Nat.pow 2 63

/-- The exponent field. -/
def biased (x : Binary64) : Nat := x.magnitude / Nat.pow 2 52

/-- The fraction field. -/
def fraction (x : Binary64) : Nat := x.magnitude % Nat.pow 2 52

def isNaN (x : Binary64) : Bool := x.biased == 2047 && x.fraction != 0

def isInfinite (x : Binary64) : Bool := x.biased == 2047 && x.fraction == 0

def isZero (x : Binary64) : Bool := x.magnitude == 0

/-- The integer `m` of a finite number `m * 2 ^ e`. -/
def significand (x : Binary64) : Nat := if x.biased = 0 then x.fraction else Nat.pow 2 52 + x.fraction

/-- The integer `e` of a finite number `m * 2 ^ e`. -/
def exponent (x : Binary64) : Int := (max x.biased 1 : Nat) - 1075

/-! ## Named values -/

def zero : Binary64 := ⟨0⟩

def infinity : Binary64 := ⟨0x7FF0000000000000⟩

def nan : Binary64 := ⟨0x7FF8000000000000⟩

/-! ## Order -/

/-- The magnitude with the sign: equal for the two zeros. -/
def rank (x : Binary64) : Int := if x.isNegative then -(x.magnitude : Int) else x.magnitude

/-- The place in the total order: negative NaNs first, then numbers with -0 before 0, then positive NaNs. -/
def totalRank (x : Binary64) : Int := if x.isNegative then -(x.magnitude : Int) - 1 else x.magnitude

/-- Numeric equality; a NaN equals nothing. -/
def eq (x y : Binary64) : Bool := !x.isNaN && !y.isNaN && x.rank == y.rank

/-- Numeric order; a NaN is unordered. -/
def lt (x y : Binary64) : Bool := !x.isNaN && !y.isNaN && decide (x.rank < y.rank)

def le (x y : Binary64) : Bool := !x.isNaN && !y.isNaN && decide (x.rank ≤ y.rank)

/-- The greater of two numbers; a NaN gives way to the other operand. -/
def max (x y : Binary64) : Binary64 := if x.isNaN then y else if y.isNaN then x else if lt x y then y else x

/-- The lesser of two numbers; a NaN gives way to the other operand. -/
def min (x y : Binary64) : Binary64 := if x.isNaN then y else if y.isNaN then x else if lt y x then y else x

/-! ## Arithmetic -/

/-- The number with its sign bit turned over. -/
def neg (x : Binary64) : Binary64 := ⟨x.bits ^^^ 0x8000000000000000⟩

def add (x y : Binary64) : Binary64 := ofFloat (x.toFloat + y.toFloat)

def sub (x y : Binary64) : Binary64 := ofFloat (x.toFloat - y.toFloat)

def mul (x y : Binary64) : Binary64 := ofFloat (x.toFloat * y.toFloat)

def div (x y : Binary64) : Binary64 := ofFloat (x.toFloat / y.toFloat)

/-- The nearest number to an integer. -/
def ofInt (n : Int) : Binary64 := ofFloat (Float.ofInt n)

/-- The nearest number to `m * 10 ^ e`. Beyond 400 places from the point it is infinite or zero. -/
def ofScientific (m : Nat) (e : Int) : Binary64 :=
  if m = 0 then zero
  else if 400 < e then infinity
  else if e < -(400 + (Nat.log2 m + 1 : Nat)) then zero
  else ofFloat (Float.ofScientific m (decide (e < 0)) e.natAbs)

/-- The integer part of a number, clamped to a range; zero for a NaN. -/
def truncate (low high : Int) (x : Binary64) : Int :=
  if x.isNaN then 0
  else if x.isInfinite then if x.isNegative then low else high
  else
    let whole := x.significand * Nat.pow 2 x.exponent.toNat / Nat.pow 2 (-x.exponent).toNat
    Max.max low (Min.min (if x.isNegative then -(whole : Int) else whole) high)

/-- The integer part of a number as a long. -/
def toLong (x : Binary64) : Long := Int64.ofInt (x.truncate Long.least Long.greatest)

/-- The eight bytes of a number, least significant first. -/
def toBytes (x : Binary64) : Bytes := Bytes.littleEndian 8 x.bits.toNat

/-- The number of eight bytes. -/
def ofBytes (bytes : Bytes) : Binary64 := ⟨UInt64.ofNat bytes.toNat⟩

@[simp] theorem length_toBytes (x : Binary64) : x.toBytes.length = 8 := Bytes.length_littleEndian 8 _

example : (ofInt (-3)).toLong = -3 ∧ (ofInt 9007199254740993).bits = 0x4340000000000000 := by decide +kernel

example : (ofScientific 25 (-1)).truncate (-10) 10 = 2 ∧ infinity.neg.toLong = Int64.minValue := by decide +kernel

end Binary64

end FragmentEngine
