import Mathlib.Algebra.Order.Field.Power
import Mathlib.Data.Rat.Cast.Order
import Mathlib.Order.WithBot
import Mathlib.Tactic.Ring
import FragmentEngine.Binary64
/-!
# The total order of doubles

The total order puts numbers in the order of their values and -0 before 0. NaNs with a sign come before all numbers and
those without after all numbers; among NaNs the fraction decides, where the bit of quiet NaNs is the highest. This is
the order of the ranks that are read off the bits.
-/

namespace FragmentEngine.Binary64

/-! ## Numbers -/

/-- The number that a finite double stands for. -/
def toRat (x : Binary64) : ℚ := (if x.isNegative then -1 else 1) * x.significand * 2 ^ x.exponent

/-- What a double stands for unless it is a NaN. -/
def value (x : Binary64) : WithBot (WithTop ℚ) :=
  if x.isInfinite then if x.isNegative then ⊥ else ⊤ else (x.toRat : WithTop ℚ)

/-- `x` is `y` or comes before it in the total order. -/
inductive TotalLE (x y : Binary64) : Prop
  | less (number : x.isNaN = false) (number' : y.isNaN = false) (less : x.value < y.value)
  | equal (number : x.isNaN = false) (number' : y.isNaN = false) (equal : x.value = y.value)
    (sign : y.isNegative = true → x.isNegative = true)
  | beforeNumbers (nan : x.isNaN = true) (negative : x.isNegative = true) (number : y.isNaN = false)
  | afterNumbers (number : x.isNaN = false) (nan : y.isNaN = true) (positive : y.isNegative = false)
  | signs (nan : x.isNaN = true) (nan' : y.isNaN = true) (negative : x.isNegative = true)
    (positive : y.isNegative = false)
  | positive (nan : x.isNaN = true) (nan' : y.isNaN = true) (positive : x.isNegative = false)
    (positive' : y.isNegative = false) (fraction : x.fraction ≤ y.fraction)
  | negative (nan : x.isNaN = true) (nan' : y.isNaN = true) (negative : x.isNegative = true)
    (negative' : y.isNegative = true) (fraction : y.fraction ≤ x.fraction)

/-! ## Magnitudes -/

/-- A magnitude as a multiple of the least positive double. -/
def units (m : Nat) : Nat :=
  (if m / Nat.pow 2 52 = 0 then m % Nat.pow 2 52 else Nat.pow 2 52 + m % Nat.pow 2 52) * 2 ^ (m / Nat.pow 2 52 - 1)

theorem units_zero : units 0 = 0 := rfl

/-- A greater magnitude stands for a greater number, also where the exponent grows. -/
theorem strictMono_units : StrictMono units := by
  refine strictMono_nat_of_lt_succ fun m => ?_
  unfold units
  have positive : 0 < Nat.pow 2 52 := by decide
  generalize Nat.pow 2 52 = p at positive ⊢
  obtain ⟨b, f, bound, rfl⟩ : ∃ b f, f < p ∧ m = f + p * b :=
    ⟨m / p, m % p, Nat.mod_lt m positive, (Nat.mod_add_div m p).symm⟩
  rw [Nat.add_mul_div_left f b positive, Nat.div_eq_of_lt bound, Nat.add_mul_mod_self_left, Nat.mod_eq_of_lt bound,
    Nat.zero_add]
  by_cases last : f + 1 = p
  · have next : f + p * b + 1 = p * (b + 1) := by rw [Nat.mul_succ]; omega
    rw [next, Nat.mul_div_cancel_left _ positive, Nat.mul_mod_right, if_neg (Nat.succ_ne_zero b), Nat.add_zero,
      Nat.add_sub_cancel]
    cases b with
    | zero => simp; omega
    | succ b =>
      rw [if_neg (Nat.succ_ne_zero b), Nat.add_sub_cancel, Nat.pow_succ, ← Nat.mul_assoc, Nat.mul_right_comm]
      exact Nat.mul_lt_mul_of_pos_right (by omega) (Nat.two_pow_pos b)
  · have below : f + 1 < p := by omega
    rw [show f + p * b + 1 = (f + 1) + p * b by omega, Nat.add_mul_div_left _ b positive, Nat.div_eq_of_lt below,
      Nat.add_mul_mod_self_left, Nat.mod_eq_of_lt below, Nat.zero_add]
    refine Nat.mul_lt_mul_of_pos_right ?_ (Nat.two_pow_pos _)
    split <;> omega

/-- The magnitude of the infinities. -/
def top : Nat := 2047 * Nat.pow 2 52

section

variable (x : Binary64)

/-- The magnitude is the fraction below the exponent. -/
theorem magnitude_eq :
    x.magnitude = x.biased * 4503599627370496 + x.fraction ∧ x.fraction < 4503599627370496 ∧ x.biased ≤ 2047 := by
  have bound : x.magnitude < Nat.pow 2 63 := Nat.mod_lt _ (by decide)
  have split : x.magnitude = x.biased * Nat.pow 2 52 + x.fraction := (Nat.div_add_mod' _ _).symm
  have fraction : x.fraction < Nat.pow 2 52 := Nat.mod_lt _ (by decide)
  rw [show Nat.pow 2 63 = 2048 * 4503599627370496 from rfl] at bound
  rw [show Nat.pow 2 52 = 4503599627370496 from rfl] at split fraction
  omega

theorem isNaN_iff : x.isNaN = true ↔ top < x.magnitude := by
  have := x.magnitude_eq
  rw [isNaN, top, Bool.and_eq_true, beq_iff_eq, bne_iff_ne, show Nat.pow 2 52 = 4503599627370496 from rfl]
  omega

variable {x}

theorem magnitude_le_top (number : x.isNaN = false) : x.magnitude ≤ top :=
  Nat.le_of_not_lt (mt x.isNaN_iff.2 (Bool.eq_false_iff.1 number))

/-- NaNs lie above the infinities by their fractions. -/
theorem magnitude_eq_of_isNaN (nan : x.isNaN = true) : x.magnitude = top + x.fraction := by
  have := x.magnitude_eq
  rw [isNaN, Bool.and_eq_true, beq_iff_eq] at nan
  rw [top, show Nat.pow 2 52 = 4503599627370496 from rfl]
  omega

variable (x)

theorem isInfinite_iff : x.isInfinite = true ↔ x.magnitude = top := by
  have := x.magnitude_eq
  rw [isInfinite, top, Bool.and_eq_true, beq_iff_eq, beq_iff_eq, show Nat.pow 2 52 = 4503599627370496 from rfl]
  omega

end

/-! ## Ranks -/

/-- A rank as a multiple of the least positive double. -/
def signedUnits (rank : ℤ) : ℤ := if rank < 0 then -units rank.natAbs else units rank.natAbs

theorem signedUnits_lt {r s : ℤ} (lt : r < s) : signedUnits r < signedUnits s := by
  unfold signedUnits
  split <;> split
  · have := strictMono_units (show s.natAbs < r.natAbs by omega)
    omega
  · have := strictMono_units (show 0 < r.natAbs by omega)
    omega
  · omega
  · have := strictMono_units (show r.natAbs < s.natAbs by omega)
    omega

theorem toRat_eq (x : Binary64) : x.toRat = signedUnits x.rank * (2 : ℚ) ^ (-1074 : ℤ) := by
  have exponent : x.exponent = (x.biased - 1 : ℕ) + (-1074) := by
    unfold exponent
    omega
  have significand : x.significand * 2 ^ (x.biased - 1) = units x.magnitude := rfl
  have signed : (signedUnits x.rank : ℚ) = (if x.isNegative then -1 else 1) * units x.magnitude := by
    unfold signedUnits rank
    cases x.isNegative with
    | false => simp
    | true =>
      rcases Nat.eq_zero_or_pos x.magnitude with zero | positive
      · simp [zero, units_zero]
      · simp [positive]
  rw [toRat, exponent, zpow_add₀ two_ne_zero, zpow_natCast, signed, ← significand]
  generalize (2 : ℚ) ^ (-1074 : ℤ) = least
  push_cast
  ring

example : toRat ⟨0xBFF8000000000000⟩ = -3 / 2 := by decide +kernel

/-- What the doubles of a rank stand for unless they are NaNs. -/
def ofRank (rank : ℤ) : WithBot (WithTop ℚ) :=
  if rank = -top then ⊥
  else if rank = top then ⊤
  else ((signedUnits rank * (2 : ℚ) ^ (-1074 : ℤ) : ℚ) : WithTop ℚ)

/-- Up to the ranks of the infinities a greater rank is that of a greater number. -/
theorem ofRank_lt {r s : ℤ} (low : -top ≤ r) (high : s ≤ top) (lt : r < s) : ofRank r < ofRank s := by
  unfold ofRank
  rw [if_neg (show s ≠ -top by omega), if_neg (show r ≠ top by omega)]
  split <;> split
  · exact bot_lt_top
  · exact WithBot.bot_lt_coe _
  · exact WithBot.coe_lt_coe.2 (WithTop.coe_lt_top _)
  · refine WithBot.coe_lt_coe.2 (WithTop.coe_lt_coe.2 (mul_lt_mul_of_pos_right ?_ (zpow_pos two_pos _)))
    exact Int.cast_lt.2 (signedUnits_lt lt)

variable {x y : Binary64}

theorem rank_bounded (number : x.isNaN = false) : -top ≤ x.rank ∧ x.rank ≤ top := by
  have := magnitude_le_top number
  rw [rank]
  split <;> omega

theorem value_eq (x : Binary64) : x.value = ofRank x.rank := by
  have positive : 0 < top := by decide
  unfold value
  split
  next infinite =>
    rw [isInfinite_iff] at infinite
    rw [ofRank, rank, infinite]
    split
    · rw [if_pos rfl]
    · rw [if_neg (by omega), if_pos rfl]
  next finite =>
    rw [isInfinite_iff] at finite
    have inside : x.rank ≠ -top ∧ x.rank ≠ top := by
      unfold rank
      split <;> omega
    rw [ofRank, if_neg inside.1, if_neg inside.2, toRat_eq]

theorem value_lt (number : x.isNaN = false) (number' : y.isNaN = false) (lt : x.rank < y.rank) :
    x.value < y.value := by
  rw [value_eq, value_eq]
  exact ofRank_lt (rank_bounded number).1 (rank_bounded number').2 lt

/-- Numbers have the order of their ranks. -/
theorem value_lt_iff (number : x.isNaN = false) (number' : y.isNaN = false) :
    x.value < y.value ↔ x.rank < y.rank := by
  refine ⟨fun less => ?_, value_lt number number'⟩
  rcases lt_trichotomy x.rank y.rank with lt | equal | gt
  · exact lt
  · rw [value_eq, value_eq, equal] at less
    exact absurd less (lt_irrefl _)
  · exact absurd less (lt_asymm (value_lt number' number gt))

theorem value_eq_iff (number : x.isNaN = false) (number' : y.isNaN = false) :
    x.value = y.value ↔ x.rank = y.rank := by
  constructor
  · intro equal
    rcases lt_trichotomy x.rank y.rank with lt | same | gt
    · exact absurd equal (ne_of_lt (value_lt number number' lt))
    · exact same
    · exact absurd equal (ne_of_gt (value_lt number' number gt))
  · intro same
    rw [value_eq, value_eq, same]

/-! ## The order -/

theorem totalRank_of_negative (h : x.isNegative = true) : x.totalRank = -(x.magnitude : ℤ) - 1 := if_pos h

theorem totalRank_of_positive (h : x.isNegative = false) : x.totalRank = x.magnitude :=
  if_neg (Bool.eq_false_iff.1 h)

theorem totalRank_eq (x : Binary64) : x.totalRank = if x.isNegative then x.rank - 1 else x.rank := by
  unfold totalRank rank
  split <;> rfl

theorem totalRank_le_of_totalLE (h : TotalLE x y) : x.totalRank ≤ y.totalRank := by
  cases h with
  | less number number' less =>
    rw [value_lt_iff number number'] at less
    rw [totalRank_eq, totalRank_eq]
    split <;> split <;> omega
  | equal number number' equal sign =>
    rw [value_eq_iff number number'] at equal
    rw [totalRank_eq, totalRank_eq, equal]
    split
    · split <;> omega
    next positive => rw [if_neg (mt sign positive)]
  | beforeNumbers nan negative number =>
    rw [totalRank_of_negative negative, totalRank]
    have := x.isNaN_iff.1 nan
    have := magnitude_le_top number
    split <;> omega
  | afterNumbers number nan positive =>
    rw [totalRank_of_positive positive, totalRank]
    have := y.isNaN_iff.1 nan
    have := magnitude_le_top number
    split <;> omega
  | signs nan nan' negative positive =>
    rw [totalRank_of_negative negative, totalRank_of_positive positive]
    omega
  | positive nan nan' positive positive' fraction =>
    rw [totalRank_of_positive positive, totalRank_of_positive positive', magnitude_eq_of_isNaN nan,
      magnitude_eq_of_isNaN nan']
    omega
  | negative nan nan' negative negative' fraction =>
    rw [totalRank_of_negative negative, totalRank_of_negative negative', magnitude_eq_of_isNaN nan,
      magnitude_eq_of_isNaN nan']
    omega

/-- Numbers of ordered ranks are ordered. -/
theorem totalLE_of_numbers (number : x.isNaN = false) (number' : y.isNaN = false) (le : x.totalRank ≤ y.totalRank) :
    TotalLE x y := by
  rcases lt_or_ge x.rank y.rank with less | ge
  · exact .less number number' ((value_lt_iff number number').2 less)
  have equal : x.rank = y.rank := by
    unfold totalRank at le
    unfold rank at ge ⊢
    cases sign : x.isNegative <;> cases sign' : y.isNegative <;>
      simp only [sign, sign', Bool.false_eq_true, if_true, if_false] at le ge ⊢ <;> omega
  refine .equal number number' ((value_eq_iff number number').2 equal) fun negative => ?_
  by_contra positive
  rw [totalRank_of_positive (Bool.eq_false_iff.2 positive), totalRank_of_negative negative] at le
  omega

/-- The total order is the order of the ranks. -/
theorem totalLE_iff : TotalLE x y ↔ x.totalRank ≤ y.totalRank := by
  refine ⟨totalRank_le_of_totalLE, fun le => ?_⟩
  cases nan : x.isNaN with
  | false =>
    cases nan' : y.isNaN with
    | false => exact totalLE_of_numbers nan nan' le
    | true =>
      refine .afterNumbers nan nan' (Bool.eq_false_iff.2 fun negative => ?_)
      rw [totalRank_of_negative negative, totalRank] at le
      have := y.isNaN_iff.1 nan'
      have := magnitude_le_top nan
      split at le <;> omega
  | true =>
    have above := x.isNaN_iff.1 nan
    cases nan' : y.isNaN with
    | false =>
      refine .beforeNumbers nan ((Bool.eq_false_or_eq_true _).resolve_right fun positive => ?_) nan'
      rw [totalRank_of_positive positive, totalRank] at le
      have := magnitude_le_top nan'
      split at le <;> omega
    | true =>
      have fraction := magnitude_eq_of_isNaN nan
      have fraction' := magnitude_eq_of_isNaN nan'
      cases sign : x.isNegative <;> cases sign' : y.isNegative
      · rw [totalRank_of_positive sign, totalRank_of_positive sign'] at le
        exact .positive nan nan' sign sign' (by omega)
      · rw [totalRank_of_positive sign, totalRank_of_negative sign'] at le
        omega
      · exact .signs nan nan' sign sign'
      · rw [totalRank_of_negative sign, totalRank_of_negative sign'] at le
        exact .negative nan nan' sign sign' (by omega)

/-- No two doubles have one rank. -/
theorem totalRank_injective : Function.Injective totalRank := by
  rintro ⟨x⟩ ⟨y⟩ same
  refine congrArg Binary64.mk (UInt64.toNat_inj.1 ?_)
  have low : x.toNat < 2 * 9223372036854775808 := x.toNat_lt
  have low' : y.toNat < 2 * 9223372036854775808 := y.toNat_lt
  simp only [totalRank, isNegative, magnitude, decide_eq_true_eq, show Nat.pow 2 63 = 9223372036854775808 from rfl] at same
  split at same <;> split at same <;> omega

end FragmentEngine.Binary64
