import FragmentEngine.Json.Number
import FragmentEngine.Proofs.Decimal.Whole
import FragmentEngine.Proofs.Text.Run
/-!
# Whole numbers in JSON read back

The digits of a number that fits 64 bits are read as the number, if what follows does not go on with the literal.
-/

namespace FragmentEngine

namespace Json.Literal

open Decimal

variable {n : Nat} {rest : List Char}

theorem isWhole_digits (n : Nat) : isWhole (digits n) = true := by
  by_cases hn : n = 0
  · subst hn
    rfl
  · obtain ⟨d, ds, hdigits, hd⟩ := digits_pos hn
    rw [hdigits]
    unfold isWhole
    split <;> simp_all

/-- A text that a literal ending in digits does not go on with. -/
def Ends (rest : List Char) : Prop := ∀ c ∈ rest.head?, c.isDigit = false ∧ c ≠ '.' ∧ c ≠ 'e' ∧ c ≠ 'E'

theorem span_digits (n : Nat) (hrest : Ends rest) :
    (digits n ++ rest).takeWhile Char.isDigit = digits n ∧ (digits n ++ rest).dropWhile Char.isDigit = rest := by
  have hdigits : ∀ c ∈ digits n, c.isDigit = true := fun c hc => isDigit_of_mem_digits hc
  have hend : ∀ c ∈ rest.head?, c.isDigit = false := fun c hc => (hrest c hc).1
  exact ⟨Text.takeWhile_run hdigits hend, Text.dropWhile_run hdigits hend⟩

theorem withFraction_ends (l : Literal) (hrest : Ends rest) : withFraction l rest = some (l, rest) := by
  cases rest with
  | nil => rfl
  | cons c rest =>
    obtain ⟨-, hpoint, hsmall, hlarge⟩ := hrest c rfl
    unfold withFraction withPower
    split <;> simp_all

theorem read_digits (n : Nat) (hrest : Ends rest) :
    read? (digits n ++ rest) = some (⟨false, digits n, [], none⟩, rest) := by
  obtain ⟨htake, hdrop⟩ := span_digits n hrest
  have hsign : ∀ tail, digits n ++ rest ≠ '-' :: tail := by
    intro tail htail
    obtain ⟨d, ds, hdigits, hd⟩ := digits_head n
    rw [hdigits, List.cons_append] at htail
    cases htail
    exact absurd hd (by decide)
  unfold read?
  split
  rename_i negative cs hsplit
  split at hsplit
  · rename_i tail htail
    exact absurd htail (hsign tail)
  · cases hsplit
    simp only [htake, hdrop, isWhole_digits, withFraction_ends _ hrest, if_true]

theorem read_negative (n : Nat) (hrest : Ends rest) :
    read? ('-' :: (digits n ++ rest)) = some (⟨true, digits n, [], none⟩, rest) := by
  obtain ⟨htake, hdrop⟩ := span_digits n hrest
  simp only [read?, htake, hdrop, isWhole_digits, withFraction_ends _ hrest, if_true]

/-! ## Values -/

/-- Digits of a number that fits 64 bits are all taken in. -/
theorem absorb_eq {m : Nat} {cs : List Char} (h : foldDigits m cs < Nat.pow 2 64) :
    absorb m cs = (foldDigits m cs, []) := by
  induction cs generalizing m with
  | nil => rfl
  | cons c cs ih =>
    have hnext : 10 * m + (c.toNat - 48) ≤ foldDigits m (c :: cs) := le_foldDigits _ cs
    rw [absorb, if_pos (by omega)]
    exact ih h

theorem toJson_digits (h : n < Nat.pow 2 64) : toJson ⟨false, digits n, [], none⟩ = .int n := by
  have habsorb : absorb 0 (digits n) = (n, []) := by
    rw [absorb_eq (by rwa [foldDigits_digits]), foldDigits_digits]
  unfold toJson
  rw [habsorb]
  rfl

theorem toJson_negative (hpos : n ≠ 0) (h : n ≤ Nat.pow 2 63) :
    toJson ⟨true, digits n, [], none⟩ = .int (-(n : Int)) := by
  have hfits : n < Nat.pow 2 64 := Nat.lt_of_le_of_lt h (by decide)
  have habsorb : absorb 0 (digits n) = (n, []) := by
    rw [absorb_eq (by rwa [foldDigits_digits]), foldDigits_digits]
  have hinside : ¬(n = 0 ∨ Nat.pow 2 63 < n) := by omega
  unfold toJson
  rw [habsorb]
  simp [hinside]

end Json.Literal

end FragmentEngine
