import FragmentEngine.Proofs.Expr.Lexing
import FragmentEngine.Proofs.Expr.Printing
import FragmentEngine.Proofs.Text.Blank
/-!
# Names as expressions

A name that stands alone is read as one identifier, and as the variable of that name. It has neither blanks nor
punctuation in it.
-/

namespace FragmentEngine

namespace Lexer

open Text (not_of_points)

variable {c : Char} {cs : List Char}

theorem not_isBlank (h : continuesName c = true) : Text.isBlank c = false := Text.not_isBlank_of (by decide +kernel) h

theorem continuesName_of_startsName (h : startsName c = true) : continuesName c = true := by
  unfold startsName at h
  unfold continuesName
  rcases Bool.or_eq_true_iff.1 h with h | h <;> simp [h]

theorem not_isDigit (h : startsName c = true) : c.isDigit = false := by
  rw [Bool.eq_false_iff]
  intro hdigit
  have hpoint : c.toNat ∈ [48, 49, 50, 51, 52, 53, 54, 55, 56, 57] := by
    simp only [Char.isDigit, Bool.and_eq_true, decide_eq_true_eq, ge_iff_le, UInt32.le_iff_toNat_le] at hdigit
    have hlow : 48 ≤ c.toNat := hdigit.1
    have hhigh : c.toNat ≤ 57 := hdigit.2
    simp only [List.mem_cons, List.not_mem_nil, or_false]
    omega
  have hnot : startsName c = false := not_of_points (by decide +kernel) hpoint
  rw [h] at hnot
  cases hnot

theorem lexeme_name (pos : Nat) (hc : startsName c = true) (rest : List Char) : lexeme pos c rest =
    .ok (word (c :: rest.takeWhile continuesName), (rest.takeWhile continuesName).length) := by
  rw [lexeme_of_not_sign pos (not_sign_of (by decide +kernel) hc), if_neg, if_neg, if_pos hc]
  · rw [not_isDigit hc]
    exact Bool.false_ne_true
  · rintro (rfl | rfl) <;> exact absurd hc (by decide)

/-- A word ends at a blank. -/
theorem lexed_word (hc : startsName c = true) (hcs : ∀ d ∈ cs, continuesName d = true) :
    Lexed (word (c :: cs)) (c :: cs) := by
  refine .of_lexeme (not_isBlank (continuesName_of_startsName hc)) fun pos rest h => ?_
  rw [lexeme_name pos hc, Text.takeWhile_run hcs (h.head_not (by decide +kernel))]

theorem lexed_name {name : String} (h : Token.isName name = true) : Lexed (.identifier name) name.toList := by
  unfold Token.isName at h
  split at h
  · cases h
  · rename_i c cs hcs
    simp only [Bool.and_eq_true, List.all_eq_true, Option.isNone_iff_eq_none] at h
    have hword : word (c :: cs) = .identifier name := by
      rw [word, h.2, ← hcs, String.ofList_toList]
      rfl
    rw [hcs, ← hword]
    exact lexed_word h.1.1 h.1.2

/-- A name is the only token of its text. -/
theorem tokens_name {s : String} (h : Token.isName s = true) : tokens s.toList = .ok [.identifier s, .endOfInput] :=
  (lexed_name h).tokens

end Lexer

namespace Token

variable {s : String}

theorem continuesName_of_isName (h : isName s = true) : ∀ c ∈ s.toList, Lexer.continuesName c = true := by
  unfold isName at h
  split at h
  · cases h
  · rename_i c rest hs
    simp only [Bool.and_eq_true, List.all_eq_true] at h
    rw [hs]
    exact List.forall_mem_cons.2 ⟨Lexer.continuesName_of_startsName h.1.1, h.1.2⟩

/-- A character that does not continue names is in none. -/
theorem not_mem_of_isName {c : Char} (hc : Lexer.continuesName c = false) (h : isName s = true) : c ∉ s.toList := by
  intro hmem
  rw [continuesName_of_isName h c hmem] at hc
  cases hc

end Token

/-- A name is read as the variable of that name. -/
theorem Expr.parse_name {s : String} (h : Token.isName s = true) : parse s = .ok (.variable s) := by
  rw [parse_eq (Lexer.tokens_name h) (by simp)]
  rfl

end FragmentEngine
