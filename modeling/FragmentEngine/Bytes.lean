/-!
# Bytes

Byte strings, the little-endian form of numbers and the hexadecimal spelling of bytes. A number below
`256 ^ k` is what its `k` bytes read back.
-/

namespace FragmentEngine

abbrev Bytes := List UInt8

namespace Bytes

/-- The `k` low bytes of `n`, least significant first. -/
def littleEndian : Nat → Nat → Bytes
  | 0, _ => []
  | k + 1, n => UInt8.ofNat (n % 256) :: littleEndian k (n / 256)

/-- The number whose bytes are given, least significant first. -/
def toNat : Bytes → Nat
  | [] => 0
  | b :: rest => b.toNat + 256 * toNat rest

@[simp] theorem length_littleEndian (k n : Nat) : (littleEndian k n).length = k := by
  induction k generalizing n with
  | zero => rfl
  | succ k ih => simp [littleEndian, ih]

theorem toNat_lt (bytes : Bytes) : toNat bytes < Nat.pow 256 bytes.length := by
  induction bytes with
  | nil => decide
  | cons b rest ih =>
    have := b.toNat_lt
    simp only [toNat, List.length_cons, Nat.pow_eq, Nat.pow_succ] at *
    omega

theorem toNat_littleEndian {k n : Nat} (h : n < Nat.pow 256 k) : toNat (littleEndian k n) = n := by
  induction k generalizing n with
  | zero => simp only [Nat.pow_eq, Nat.pow_zero] at h; simp only [littleEndian, toNat]; omega
  | succ k ih =>
    have small : n / 256 < Nat.pow 256 k := by
      simp only [Nat.pow_eq, Nat.pow_succ] at *; omega
    simp only [littleEndian, toNat, ih small, UInt8.toNat_ofNat']
    omega

theorem littleEndian_toNat (bytes : Bytes) : littleEndian bytes.length (toNat bytes) = bytes := by
  induction bytes with
  | nil => rfl
  | cons b rest ih =>
    have hb := b.toNat_lt
    have low : (b.toNat + 256 * toNat rest) % 256 = b.toNat := by omega
    have high : (b.toNat + 256 * toNat rest) / 256 = toNat rest := by omega
    simp [littleEndian, toNat, low, high, ih]

/-! ## Hexadecimal -/

/-- The lower-case digit of a number below sixteen. -/
def hexDigit (n : Nat) : Char := Char.ofNat (if n < 10 then 48 + n else 87 + n)

/-- The value of a digit of either case. -/
def hexValue (c : Char) : Option Nat :=
  if '0' ≤ c ∧ c ≤ '9' then some (c.toNat - 48)
  else if 'a' ≤ c ∧ c ≤ 'f' then some (c.toNat - 87)
  else if 'A' ≤ c ∧ c ≤ 'F' then some (c.toNat - 55)
  else none

/-- Two digits for each byte. -/
def toHex (bytes : Bytes) : List Char :=
  bytes.flatMap fun b => [hexDigit (b.toNat / 16), hexDigit (b.toNat % 16)]

/-- The byte spelled by a pair: two digits, or a plus sign and one. -/
def ofHexPair (a b : Char) : Option UInt8 :=
  if a = '+' then (hexValue b).map UInt8.ofNat
  else match hexValue a, hexValue b with
    | some x, some y => some (UInt8.ofNat (16 * x + y))
    | _, _ => none

/-- The bytes spelled by pairs of characters. -/
def ofHex? : List Char → Option Bytes
  | [] => some []
  | [_] => none
  | a :: b :: rest =>
    match ofHexPair a b, ofHex? rest with
    | some x, some xs => some (x :: xs)
    | _, _ => none

example : toHex [0, 0x4f, 0xff] = ['0', '0', '4', 'f', 'f', 'f'] := by decide +kernel

example : ofHex? ['4', 'F', '+', 'f'] = some [0x4f, 0x0f] ∧ ofHex? ['a'] = none := by decide +kernel

end Bytes

end FragmentEngine
