import FragmentEngine.Binary64
/-!
# Fixed decimal places

A number written with a given count of decimal places, rounded from its exact value; a half goes to the even
neighbour.
-/

namespace FragmentEngine.Decimal

/-- The integer nearest to `num / den`, of two the even one. -/
def roundHalfEven (num den : Nat) : Nat :=
  let q := num / den
  let r := 2 * (num % den)
  if r < den then q else if den < r then q + 1 else q + q % 2

theorem roundHalfEven_eq (num den q : Nat) (h : num = q * den) (pos : 0 < den) :
    roundHalfEven num den = q := by
  subst h
  simp [roundHalfEven, pos]

/-- The magnitude of a finite number in units of the last of `places` decimal places. -/
def units (places : Nat) (x : Binary64) : Nat :=
  roundHalfEven (x.significand * Nat.pow 2 x.exponent.toNat * Nat.pow 10 places) (Nat.pow 2 (-x.exponent).toNat)

/-- The text of a number with `places` decimal places, at least one. -/
def fixed (places : Nat) (x : Binary64) : String :=
  if x.isNaN then "NaN"
  else
    let sign := if x.isNegative then ['-'] else []
    if x.isInfinite then String.ofList (sign ++ ['i', 'n', 'f'])
    else
      let ds := Nat.toDigits 10 (units places x)
      let padded := List.replicate (places + 1 - ds.length) '0' ++ ds
      let whole := padded.length - places
      String.ofList (sign ++ padded.take whole ++ '.' :: padded.drop whole)

example : fixed 6 ⟨0x3F80000000000000⟩ = "0.007812" ∧ fixed 6 ⟨0x4009000000000000⟩ = "3.125000" := by
  decide +kernel

end FragmentEngine.Decimal
