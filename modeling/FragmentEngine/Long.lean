import FragmentEngine.Bytes
/-!
# Long integers

The signed 64-bit integers of LONG fields. Arithmetic is done on unbounded integers, and a result that does
not fit is refused or clamped to the range.
-/

namespace FragmentEngine

abbrev Long := Int64

namespace Long

def least : Int := -9223372036854775808

def greatest : Int := 9223372036854775807

/-- The long equal to `n`, if it is in range. -/
def ofInt? (n : Int) : Option Long :=
  if least ≤ n ∧ n ≤ greatest then some (Int64.ofInt n) else none

/-- The nearest long to `n`. -/
def clamp (n : Int) : Long := Int64.ofInt (max least (min n greatest))

/-- The eight bytes of a long, least significant first. -/
def toBytes (n : Long) : Bytes := Bytes.littleEndian 8 n.toUInt64.toNat

/-- The long of eight bytes. -/
def ofBytes (bytes : Bytes) : Long := Int64.ofUInt64 (UInt64.ofNat bytes.toNat)

theorem least_le_toInt (n : Long) : least ≤ n.toInt := Int64.le_toInt n

theorem toInt_le_greatest (n : Long) : n.toInt ≤ greatest := Int64.toInt_le n

theorem ofInt?_eq_some {n : Int} {l : Long} (h : ofInt? n = some l) : l.toInt = n := by
  unfold ofInt? at h
  split at h
  · rename_i bounds
    cases h
    simp only [least, greatest] at bounds
    exact Int64.toInt_ofInt_of_le (by omega) (by omega)
  · cases h

theorem ofInt?_toInt (l : Long) : ofInt? l.toInt = some l := by
  simp [ofInt?, least_le_toInt, toInt_le_greatest]

@[simp] theorem length_toBytes (n : Long) : n.toBytes.length = 8 := Bytes.length_littleEndian 8 _

end Long

end FragmentEngine
