import FragmentEngine.Proofs.Decimal.Whole
import FragmentEngine.Proofs.Expr.Lexing
import FragmentEngine.Request.Argument
/-!
# Placeholders

A placeholder is a question mark with the digits of a position. Inserted values and expressions tell placeholders by
readers of their own. These agree on all texts but those with a plus sign before the digits, which only inserted values
may have.
-/

namespace FragmentEngine

namespace Lexer

variable {pos more n : Nat} {c : Char} {cs rest : List Char}

theorem word_ne_placeholder : word cs ≠ .placeholder n := by
  unfold word Token.keyword?
  split <;> exact nofun

theorem number?_ne_placeholder {isFloat : Bool} : number? cs isFloat ≠ some (.placeholder n) := by
  unfold number?
  split <;> simp

/-- Only a question mark starts a placeholder. -/
theorem eq_of_lexeme_placeholder (h : lexeme pos c rest = .ok (.placeholder n, more)) : c = '?' := by
  unfold lexeme at h
  split at h
  all_goals try cases h
  -- the comparisons, the question mark, and what starts with no character of its own
  · split at h <;> cases h
  · split at h <;> cases h
  · split at h <;> cases h
  · rfl
  · split at h
    · split at h <;> cases h
    split at h
    · dsimp only at h
      split at h
      · rename_i t ht
        cases h
        exact absurd ht number?_ne_placeholder
      · cases h
    split at h
    · exact absurd (congrArg Prod.fst (Except.ok.inj h)) word_ne_placeholder
    · cases h

/-- The position that digits behind a question mark name. -/
def position? (digits : List Char) : Option Nat :=
  ((Decimal.natural? digits).filter (· < Nat.pow 2 64)).filter (0 < ·)

theorem isDigit_of_position? (h : position? cs = some n) : ∀ c ∈ cs, c.isDigit = true := by
  obtain ⟨h, -⟩ := Option.filter_eq_some_iff.1 h
  exact Decimal.isDigit_of_natural? (Option.filter_eq_some_iff.1 h).1

theorem position?_eq_count? (h : ∀ rest, cs ≠ '+' :: rest) : (Decimal.count? cs).filter (0 < ·) = position? cs := by
  rw [Decimal.count?_eq_natural? h]
  rfl

theorem ne_plus_of_isDigit (h : ∀ c ∈ cs, c.isDigit = true) (rest : List Char) : cs ≠ '+' :: rest := by
  rintro rfl
  exact absurd (h '+' List.mem_cons_self) (by decide)

theorem lexeme_question (pos : Nat) (rest : List Char) : lexeme pos '?' rest =
    match position? (rest.takeWhile Char.isDigit) with
    | some n => .ok (.placeholder n, (rest.takeWhile Char.isDigit).length)
    | none => .error (.invalidNumber pos) := by
  rw [← position?_eq_count? (ne_plus_of_isDigit fun c => List.mem_takeWhile_imp)]
  rfl

/-- A placeholder and nothing else: a question mark and digits. -/
theorem tokens_question (htrim : Text.trim ('?' :: rest) = '?' :: rest) :
    tokens ('?' :: rest) = .ok [.placeholder n, .endOfInput] ↔ position? rest = some n := by
  rw [tokens, tokensFrom_visible 0 (by decide), lexeme_question]
  constructor
  · intro h
    obtain ⟨⟨t, more⟩, hlexeme, h⟩ := Outcome.bind_eq_ok.1 h
    obtain ⟨ts, hts, h⟩ := Outcome.map_eq_ok.1 h
    cases h
    split at hlexeme
    · rename_i n' hposition
      cases hlexeme
      have hrest : rest.takeWhile Char.isDigit ++ rest.dropWhile Char.isDigit = rest :=
        List.takeWhile_append_dropWhile
      have hback := tokensFrom_skip 1 (rest.takeWhile Char.isDigit) (rest.dropWhile Char.isDigit)
      rw [hrest, hts] at hback
      rw [← hrest, ← List.cons_append] at htrim
      have hnil := Text.eq_nil_of_trim_append htrim (blank_of_tokensFrom hback.symm)
      rw [hnil, List.append_nil] at hrest
      rwa [hrest] at hposition
    · cases hlexeme
  · intro h
    have hdigits : rest.takeWhile Char.isDigit = rest := List.takeWhile_eq_self_iff.2 (isDigit_of_position? h)
    have hskip := tokensFrom_skip 1 rest []
    rw [List.append_nil] at hskip
    rw [hdigits, h]
    simp only [Outcome.ok_bind, hskip]
    rfl

theorem exists_of_tokens_placeholder {ts : List Token} (htrim : Text.trim cs = cs)
    (h : tokens cs = .ok (.placeholder n :: ts)) : ∃ rest, cs = '?' :: rest := by
  cases cs with
  | nil => cases h
  | cons c rest =>
    have hvisible : Text.isBlank c = false := (Text.trim_eq_self_iff.1 htrim).1 c rfl
    rw [tokens, tokensFrom_visible 0 hvisible] at h
    obtain ⟨⟨t, more⟩, hlexeme, h⟩ := Outcome.bind_eq_ok.1 h
    obtain ⟨ts', -, h⟩ := Outcome.map_eq_ok.1 h
    cases h
    exact ⟨rest, by rw [eq_of_lexeme_placeholder hlexeme]⟩

end Lexer

namespace Argument

theorem placeholder?_question (rest : List Char) : placeholder? ('?' :: rest) = (Decimal.count? rest).filter (0 < ·) := rfl

theorem placeholder?_signed (rest : List Char) : placeholder? ('?' :: '+' :: rest) = Lexer.position? rest := rfl

/-- Where the text does not go on with a plus sign, inserted values and expressions tell the same placeholders. With the
plus sign it is none in an expression, and an inserted value takes it for the placeholder without the plus sign. -/
theorem placeholder_iff_token {t : List Char} (htrim : Text.trim t = t) (n : Nat) :
    ((∀ rest, t ≠ '?' :: '+' :: rest) →
      (placeholder? t = some n ↔ Lexer.tokens t = .ok [.placeholder n, .endOfInput])) ∧
    ∀ rest, t = '?' :: '+' :: rest → Lexer.tokens t = .error (.invalidNumber 0) ∧
      (placeholder? t = some n ↔ Lexer.tokens ('?' :: rest) = .ok [.placeholder n, .endOfInput]) := by
  constructor
  · intro hplus
    by_cases hquestion : ∃ rest, t = '?' :: rest
    · obtain ⟨rest, rfl⟩ := hquestion
      rw [Lexer.tokens_question htrim, placeholder?_question, Lexer.position?_eq_count?]
      rintro rest rfl
      exact hplus rest rfl
    · have hnone : placeholder? t = none := by
        unfold placeholder?
        split
        · exact absurd ⟨_, rfl⟩ hquestion
        · rfl
      rw [hnone]
      exact ⟨nofun, fun h => absurd (Lexer.exists_of_tokens_placeholder htrim h) hquestion⟩
  · rintro rest rfl
    have htrim' : Text.trim ('?' :: rest) = '?' :: rest := by
      have hlast := (Text.trim_eq_self_iff.1 htrim).2
      have hvisible : Text.isBlank '?' = false := by decide
      refine Text.trim_eq_self_iff.2 ⟨by simp [hvisible], ?_⟩
      cases rest with
      | nil => simp [hvisible]
      | cons c rest => simpa using hlast
    exact ⟨rfl, by rw [placeholder?_signed, Lexer.tokens_question htrim']⟩

theorem placeholder_iff_token_leadingZero :
    Text.trim "?02".toList = "?02".toList ∧ (∀ rest, "?02".toList ≠ '?' :: '+' :: rest) ∧
      placeholder? "?02".toList = some 2 ∧ Lexer.tokens "?02".toList = .ok [.placeholder 2, .endOfInput] ∧
    Text.trim "?+2".toList = "?+2".toList ∧ placeholder? "?+2".toList = some 2 ∧
      Lexer.tokens "?+2".toList = .error (.invalidNumber 0) := by
  have hplain : ∀ rest, "?02".toList ≠ '?' :: '+' :: rest := by
    rintro rest h
    cases h
  have htokens : Lexer.tokens "?02".toList = .ok [.placeholder 2, .endOfInput] := by rfl
  have hsigned : Lexer.tokens ('?' :: ['2']) = .ok [.placeholder 2, .endOfInput] := by rfl
  obtain ⟨hunsigned, -⟩ := placeholder_iff_token (t := "?02".toList) (by decide) 2
  obtain ⟨-, hplus⟩ := placeholder_iff_token (t := "?+2".toList) (by decide) 2
  obtain ⟨herror, hread⟩ := hplus ['2'] rfl
  exact ⟨by decide, hplain, (hunsigned hplain).2 htokens, htokens, by decide, hread.2 hsigned, herror⟩

/-- With a plus sign the two readers differ. -/
theorem signedPlaceholder_disagrees : Text.trim "?+2".toList = "?+2".toList ∧
    ¬(placeholder? "?+2".toList = some 2 ↔ Lexer.tokens "?+2".toList = .ok [.placeholder 2, .endOfInput]) := by
  refine ⟨by decide, fun h => ?_⟩
  have hread : placeholder? "?+2".toList = some 2 := by decide +kernel
  cases h.1 hread

end Argument

end FragmentEngine
