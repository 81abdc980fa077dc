import FragmentEngine.Decimal.Whole
/-!
# Whole numbers read back

The digits of a number are read as the number, with a sign for those below zero, and so a long is read from its decimal
text.
-/

namespace FragmentEngine.Decimal

theorem foldDigits_eq (acc : Nat) (cs : List Char) : foldDigits acc cs = Nat.ofDigitChars 10 cs acc := by
  rw [Nat.ofDigitChars_eq_foldl]
  rfl

theorem foldDigits_digits (n : Nat) : foldDigits 0 (digits n) = n := by
  rw [foldDigits_eq, digits, Nat.ofDigitChars_ten_toDigits]

theorem le_foldDigits (acc : Nat) (cs : List Char) : acc ≤ foldDigits acc cs := by
  induction cs generalizing acc with
  | nil => exact Nat.le_refl acc
  | cons c cs ih =>
    have hnext : 10 * acc + (c.toNat - 48) ≤ foldDigits acc (c :: cs) := ih _
    omega

theorem isDigit_of_mem_digits {n : Nat} {c : Char} (h : c ∈ digits n) : c.isDigit = true :=
  Nat.isDigit_of_mem_toDigits (by decide) (by decide) h

theorem digits_head (n : Nat) : ∃ d ds, digits n = d :: ds ∧ d.isDigit = true := by
  cases hdigits : digits n with
  | nil => exact absurd hdigits Nat.toDigits_ne_nil
  | cons d ds =>
    refine ⟨d, ds, rfl, isDigit_of_mem_digits (n := n) ?_⟩
    rw [hdigits]
    exact List.mem_cons_self

theorem digitChar_ne_zero : ∀ n < 10, n ≠ 0 → Nat.digitChar n ≠ '0' := by decide

/-- No zero leads the digits of a number other than zero. -/
theorem digits_pos {n : Nat} (hpos : n ≠ 0) : ∃ d ds, digits n = d :: ds ∧ d ≠ '0' := by
  induction n using Nat.strongRecOn with
  | ind n ih =>
    by_cases hn : n < 10
    · exact ⟨n.digitChar, [], Nat.toDigits_of_lt_base hn, digitChar_ne_zero n hn hpos⟩
    · obtain ⟨d, ds, hdigits, hd⟩ := ih (n / 10) (by omega) (by omega)
      refine ⟨d, ds ++ [(n % 10).digitChar], ?_, hd⟩
      have hsplit : digits n = digits (n / 10) ++ [(n % 10).digitChar] :=
        Nat.toDigits_of_base_le (by decide) (by omega)
      rw [hsplit, hdigits, List.cons_append]

/-! ## Runs of digits -/

theorem isDigit_of_natural? {n : Nat} {cs : List Char} (h : natural? cs = some n) : ∀ c ∈ cs, c.isDigit = true := by
  unfold natural? at h
  split at h
  · rename_i hdigits
    exact List.all_eq_true.1 (Bool.and_eq_true_iff.1 hdigits).2
  · cases h

/-- Without a plus sign a count is a run of digits. -/
theorem count?_eq_natural? {cs : List Char} (h : ∀ rest, cs ≠ '+' :: rest) :
    count? cs = (natural? cs).filter (· < Nat.pow 2 64) := by
  unfold count? word? unsigned?
  split
  · exact absurd rfl (h _)
  · rfl

/-! ## Texts of longs -/

theorem natural?_digits (n : Nat) : natural? (digits n) = some n := by
  obtain ⟨d, ds, hdigits, -⟩ := digits_head n
  have hall : (digits n).all Char.isDigit = true := List.all_eq_true.2 fun c hc => isDigit_of_mem_digits hc
  have hne : (digits n).isEmpty = false := by
    rw [hdigits]
    rfl
  unfold natural?
  rw [hall, hne, foldDigits_digits]
  rfl

/-- A run of digits has no sign. -/
theorem unsigned?_digits (n : Nat) : unsigned? (digits n) = some n := by
  obtain ⟨d, ds, hdigits, hd⟩ := digits_head n
  unfold unsigned?
  split
  · rename_i heq
    rw [hdigits] at heq
    cases heq
    cases hd
  · exact natural?_digits n

/-- A number that fits is read from its digits. -/
theorem word?_digits {bits n : Nat} (h : n < Nat.pow 2 bits) : word? bits (digits n) = some n := by
  unfold word?
  rw [unsigned?_digits, Option.filter_some]
  exact if_pos (decide_eq_true h)

theorem signed?_digits (n : Nat) : signed? (digits n) = some (n : Int) := by
  obtain ⟨d, ds, hdigits, hd⟩ := digits_head n
  unfold signed?
  split
  · rename_i heq
    rw [hdigits] at heq
    cases heq
    cases hd
  · rw [unsigned?_digits]
    rfl

theorem toList_toString (n : Int) : (toString n).toList = (if n < 0 then ['-'] else []) ++ digits n.natAbs := by
  cases n with
  | ofNat m =>
    show (toString m).toList = _
    simp [digits]
  | negSucc m =>
    show ("-" ++ toString (m + 1)).toList = _
    simp [digits]

theorem signed?_toString (n : Int) : signed? (toString n).toList = some n := by
  rw [toList_toString]
  split
  · have hminus : signed? ('-' :: digits n.natAbs) = some (-(n.natAbs : Int)) := by
      simp only [signed?, natural?_digits]
      rfl
    rw [List.singleton_append, hminus, Option.some.injEq]
    omega
  · rw [List.nil_append, signed?_digits, Option.some.injEq]
    omega

/-- A long is read from its decimal text. -/
theorem long?_toString (n : Long) : long? (toString n.toInt).toList = some n := by
  unfold long?
  rw [signed?_toString, Option.bind_some, Long.ofInt?_toInt]

end FragmentEngine.Decimal
