import FragmentEngine.Proofs.Expr.Names
import FragmentEngine.Proofs.Expr.Placeholder
import FragmentEngine.Proofs.Request.Written
/-!
# Written tokens

Tokens are read again from their texts with a blank between each two: keywords in any case, either sign for "not equal",
and strings in either quote, with the quotes in them doubled.
-/

namespace FragmentEngine

namespace Lexer

/-! ## Quoted texts -/

/-- The text with each quote of a kind doubled. -/
def doubled (q : Char) (cs : List Char) : List Char := cs.flatMap fun c => if c = q then [q, q] else [c]

/-- The text between quotes, with the quotes in it doubled. -/
def inQuotes (q : Char) (cs : List Char) : List Char := q :: (doubled q cs ++ [q])

variable {q c : Char} {cs text rest : List Char}

theorem doubled_quote (q : Char) (cs : List Char) : doubled q (q :: cs) = q :: q :: doubled q cs := by
  simp [doubled]

theorem doubled_plain (h : c ≠ q) (cs : List Char) : doubled q (c :: cs) = c :: doubled q cs := by
  simp [doubled, h]

/-- Every quote makes the text one character longer. -/
theorem length_doubled (q : Char) (cs : List Char) : (doubled q cs).length = cs.length + cs.count q := by
  induction cs with
  | nil => rfl
  | cons c cs ih =>
    by_cases hc : c = q
    · subst hc
      rw [doubled_quote, List.length_cons, List.length_cons, ih, List.length_cons, List.count_cons_self]
      omega
    · rw [doubled_plain hc, List.length_cons, ih, List.length_cons, List.count_cons_of_ne hc]
      omega

/-- Without the quote, and only then, nothing is doubled. -/
theorem doubled_eq_self_iff : doubled q cs = cs ↔ q ∉ cs := by
  constructor
  · intro h
    have hlength := length_doubled q cs
    rw [h] at hlength
    exact List.count_eq_zero.1 (by omega)
  · intro h
    induction cs with
    | nil => rfl
    | cons c cs ih =>
      rw [List.mem_cons, not_or] at h
      rw [doubled_plain (Ne.symm h.1), ih h.2]

theorem quoted_plain (h : c ≠ q) (rest : List Char) :
    quoted q (c :: rest) = (quoted q rest).map fun (text, n) => (c :: text, n + 1) := by
  cases rest with
  | nil => simp [quoted, h]
  | cons d rest => rw [quoted, if_pos h]

/-- A quote ends the text unless the same quote follows. -/
theorem quoted_end (h : ∀ d, rest.head? = some d → d ≠ q) : quoted q (q :: rest) = some ([], 1) := by
  cases rest with
  | nil => simp [quoted]
  | cons d rest => simp [quoted, h d rfl]

theorem quoted_doubled (h : ∀ d, rest.head? = some d → d ≠ q) (cs : List Char) :
    quoted q (doubled q cs ++ q :: rest) = some (cs, (doubled q cs).length + 1) := by
  induction cs with
  | nil => exact quoted_end h
  | cons c cs ih =>
    by_cases hc : c = q
    · subst hc
      -- the two quotes are read as one, and the text goes on
      rw [doubled_quote, List.cons_append, List.cons_append, quoted, if_neg (by simp), if_pos rfl, ih]
      rfl
    · rw [doubled_plain hc, List.cons_append, quoted_plain hc, ih]
      rfl

/-! ## Numbers -/

theorem numberSpan_digit (h : c.isDigit = true) (rest : List Char) :
    numberSpan false (c :: rest) = (c :: (numberSpan false rest).1, (numberSpan false rest).2) := by
  cases rest with
  | nil => simp [numberSpan, h]
  | cons d rest => rw [numberSpan, if_pos h]

/-- A blank is no part of a number. -/
theorem numberSpan_apart (h : Apart rest) : numberSpan false rest = ([], false) := by
  cases rest with
  | nil => rfl
  | cons c rest =>
    have hdigit : c.isDigit = false := h.head_not (by decide) c rfl
    have hpoint : c ≠ '.' := h.head_ne (by decide) c rfl
    have hlower : c ≠ 'e' := h.head_ne (by decide) c rfl
    have hupper : c ≠ 'E' := h.head_ne (by decide) c rfl
    cases rest <;> simp [numberSpan, hdigit, hpoint, hlower, hupper]

theorem numberSpan_digits (hcs : ∀ c ∈ cs, c.isDigit = true) (h : Apart rest) :
    numberSpan false (cs ++ rest) = (cs, false) := by
  induction cs with
  | nil => exact numberSpan_apart h
  | cons c cs ih =>
    rw [List.forall_mem_cons] at hcs
    rw [List.cons_append, numberSpan_digit hcs.1, ih hcs.2]

/-! ## One token -/

theorem lexed_string (hq : Sections.isQuote q = true) (cs : List Char) :
    Lexed (.string (String.ofList cs)) (inQuotes q cs) := by
  refine .of_lexeme (Sections.not_isBlank_of_isQuote hq) fun pos rest h => ?_
  have hread : quoted q (doubled q cs ++ [q] ++ rest) = some (cs, (doubled q cs).length + 1) := by
    rw [List.append_assoc]
    exact quoted_doubled (h.head_ne (Sections.not_isBlank_of_isQuote hq)) cs
  rw [lexeme_of_not_sign pos (not_sign_of (by decide) hq), if_pos (Sections.eq_of_isQuote hq), hread,
    List.length_append]
  rfl

theorem lexed_placeholder {n : Nat} (hpos : 0 < n) (hn : n < Nat.pow 2 64) :
    Lexed (.placeholder n) ('?' :: Decimal.digits n) := by
  refine .of_lexeme (by decide) fun pos rest h => ?_
  have hposition : position? (Decimal.digits n) = some n := by
    have hfits : (Decimal.natural? (Decimal.digits n)).filter (· < Nat.pow 2 64) = some n := by
      rw [Decimal.natural?_digits, Option.filter_some]
      exact if_pos (decide_eq_true hn)
    rw [position?, hfits, Option.filter_some, if_pos (decide_eq_true hpos)]
  rw [lexeme_question, Text.takeWhile_run (fun c => Decimal.isDigit_of_mem_digits) (h.head_not (by decide)), hposition]

theorem lexed_integer {n : Long} (hn : 0 ≤ n.toInt) : Lexed (.integer n) (toString n.toInt).toList := by
  have hdigits : (toString n.toInt).toList = Decimal.digits n.toInt.natAbs := by
    rw [Decimal.toList_toString, if_neg (by omega), List.nil_append]
  have hread : Decimal.long? (Decimal.digits n.toInt.natAbs) = some n := by
    rw [← hdigits, Decimal.long?_toString]
  have hall : ∀ c ∈ Decimal.digits n.toInt.natAbs, c.isDigit = true := fun c => Decimal.isDigit_of_mem_digits
  obtain ⟨c, cs, hcs, hc⟩ := Decimal.digits_head n.toInt.natAbs
  rw [hdigits]
  rw [hcs] at hread hall ⊢
  refine .of_lexeme (Text.not_isBlank_of (by decide) hc) fun pos rest h => ?_
  have hspan : numberSpan false (c :: (cs ++ rest)) = (c :: cs, false) := numberSpan_digits hall h
  have hnumber : number? (c :: cs) false = some (.integer n) := by
    rw [number?, if_neg Bool.false_ne_true, hread]
    rfl
  rw [lexeme_of_not_sign pos (not_sign_of (by decide) hc), if_neg, if_pos hc, hspan, hnumber]
  · rfl
  · rintro (rfl | rfl) <;> exact absurd hc (by decide)

/-- A sign that no other sign goes on from is a token whatever follows. -/
theorem lexed_own {t : Token} (visible : Text.isBlank c = false)
    (h : ∀ pos rest, lexeme pos c (cs ++ rest) = .ok (t, cs.length)) : Lexed t (c :: cs) :=
  .of_lexeme visible fun pos rest _ => h pos rest

theorem lexed_lt : Lexed .lt ['<'] := by
  refine .of_lexeme (by decide) fun pos rest h => ?_
  cases rest with
  | nil => rfl
  | cons d rest =>
    have heq : d ≠ '=' := h.head_ne (by decide) d rfl
    have hgt : d ≠ '>' := h.head_ne (by decide) d rfl
    simp [lexeme, heq, hgt]

theorem lexed_gt : Lexed .gt ['>'] := by
  refine .of_lexeme (by decide) fun pos rest h => ?_
  cases rest with
  | nil => rfl
  | cons d rest =>
    have heq : d ≠ '=' := h.head_ne (by decide) d rfl
    simp [lexeme, heq]

end Lexer

namespace Token

open Lexer

/-- The tokens that are signs. -/
def isSign : Token → Bool
  | .plus | .minus | .asterisk | .slash | .percent | .eq | .ne | .lt | .gt | .le | .ge | .leftParen | .rightParen
  | .comma | .dot => true
  | _ => false

/-- The texts of a token: a keyword in any case, a string in either quote. -/
inductive Written : Token → String → Prop
  | keyword {t : Token} {word : String} : keyword? word.toList = some t → Written t word
  | sign {t : Token} : t.isSign = true → Written t t.display
  | unequal : Written .ne "!="
  | name {name : String} : isName name = true → Written (.identifier name) name
  | placeholder {n : Nat} : 0 < n → n < Nat.pow 2 64 → Written (.placeholder n) ("?" ++ toString n)
  | integer {n : Long} : 0 ≤ n.toInt → Written (.integer n) (toString n.toInt)
  | string {q : Char} (text : String) :
      Sections.isQuote q = true → Written (.string text) (String.ofList (inQuotes q text.toList))

/-- The tokens that have a text: all but floats, numbers below zero and the end of the input, with the names and the
positions that can be read. -/
def Writable : Token → Prop
  | .identifier name => isName name = true
  | .placeholder n => 0 < n ∧ n < Nat.pow 2 64
  | .integer n => 0 ≤ n.toInt
  | .float _ | .endOfInput => False
  | _ => True

variable {t : Token} {text : String} {cs : List Char}

theorem exists_written (h : t.Writable) : ∃ text, Written t text := by
  cases t with
  | and => exact ⟨"AND", .keyword (by decide)⟩
  | or => exact ⟨"OR", .keyword (by decide)⟩
  | not => exact ⟨"NOT", .keyword (by decide)⟩
  | mod => exact ⟨"MOD", .keyword (by decide)⟩
  | identifier name => exact ⟨name, .name h⟩
  | placeholder n => exact ⟨_, .placeholder h.1 h.2⟩
  | integer n => exact ⟨_, .integer h⟩
  | string text => exact ⟨_, .string (q := '\'') text (by decide)⟩
  | float _ | endOfInput => exact h.elim
  | _ => exact ⟨_, .sign rfl⟩

/-! ## Reading a token -/

theorem lt_of_isAlpha {c : Char} (h : c.isAlpha = true) : c.toNat < 128 := by
  have hlast {last : Char} (hc : c.val ≤ last.val) (h : last.toNat < 128) : c.toNat < 128 :=
    Nat.lt_of_le_of_lt (UInt32.le_iff_toNat_le.1 hc) h
  rcases Bool.or_eq_true_iff.1 h with hupper | hlower
  · exact hlast (of_decide_eq_true hupper).2 (by decide)
  · exact hlast (of_decide_eq_true (Bool.and_eq_true_iff.1 hlower).2) (by decide)

/-- A character that becomes an upper-case letter is a letter. -/
theorem startsName_of_toUpper {c : Char} (h : c.toUpper.isUpper = true) : startsName c = true := by
  have hletter : c.isAlpha = true := by
    unfold Char.toUpper at h
    split at h
    · rename_i hlower
      have hlower : c.isLower = true :=
        Bool.and_eq_true_iff.2 ⟨decide_eq_true hlower.1, decide_eq_true hlower.2⟩
      exact Bool.or_eq_true_iff.2 (.inr hlower)
    · exact Bool.or_eq_true_iff.2 (.inl h)
  rw [startsName, Text.isLetter_of_lt (lt_of_isAlpha hletter), hletter]
  rfl

/-- Keywords are words. -/
theorem lexed_keyword (h : keyword? cs = some t) : Lexed t cs := by
  have hupper : cs.map Char.toUpper ≠ [] ∧ (cs.map Char.toUpper).all Char.isUpper = true := by
    unfold keyword? at h
    split at h
    case h_5 => cases h
    all_goals
      rename_i hword
      rw [hword]
      decide
  have hletters : ∀ c ∈ cs, startsName c = true :=
    fun c hc => startsName_of_toUpper (List.all_eq_true.1 hupper.2 _ (List.mem_map_of_mem hc))
  -- letters alone make a word, and the word is the keyword, not a name
  cases cs with
  | nil => exact absurd rfl hupper.1
  | cons c cs =>
    have hword : word (c :: cs) = t := by
      rw [word, h]
      rfl
    rw [← hword]
    obtain ⟨hc, hcs⟩ := List.forall_mem_cons.1 hletters
    exact lexed_word hc fun d hd => continuesName_of_startsName (hcs d hd)

theorem lexed_sign (h : t.isSign = true) : Lexed t t.display.toList := by
  cases t with
  | lt => exact lexed_lt
  | gt => exact lexed_gt
  | plus | minus | asterisk | slash | percent | eq | ne | le | ge | leftParen | rightParen | comma | dot =>
    exact lexed_own (by decide) fun _ _ => rfl
  | _ => cases h

theorem lexed_of_written (h : Written t text) : Lexed t text.toList := by
  cases h with
  | keyword h => exact lexed_keyword h
  | sign h => exact lexed_sign h
  | unequal => exact lexed_own (by decide) fun _ _ => rfl
  | name h => exact lexed_name h
  | placeholder hpos hn =>
    have htext (n : Nat) : ("?" ++ toString n).toList = '?' :: Decimal.digits n := by simp [Decimal.digits]
    rw [htext]
    exact lexed_placeholder hpos hn
  | integer hn => exact lexed_integer hn
  | string text hq =>
    have hlexed := lexed_string hq text.toList
    rwa [String.ofList_toList, ← String.toList_ofList (l := inQuotes _ _)] at hlexed

end Token

namespace Lexer

/-- Tokens with a blank between each two are read one by one. -/
theorem tokensFrom_join {ts : List Token} {texts : List (List Char)} (h : List.Forall₂ Lexed ts texts) (pos : Nat) :
    tokensFrom pos 0 ([' '].intercalate texts) = .ok (ts ++ [.endOfInput]) := by
  induction h generalizing pos with
  | nil => rfl
  | @cons t text ts texts hlexed hrest ih =>
    cases texts with
    | nil =>
      cases hrest
      have hread := hlexed pos [] apart_nil
      rw [List.append_nil] at hread
      rw [List.intercalate_singleton, hread]
      rfl
    | cons text' texts =>
      rw [List.intercalate_cons_cons, List.append_assoc, List.singleton_append, hlexed pos _ (apart_blank _),
        tokensFrom, if_pos (by decide), ih]
      rfl

/-- Keywords, signs, names, placeholders, numbers and strings all have texts. However they are written, with one blank
between each two they are read again, and nothing else is. -/
theorem tokens_written {ts : List Token} (h : ∀ t ∈ ts, t.Writable) : (∃ texts, List.Forall₂ Token.Written ts texts) ∧
    ∀ texts, List.Forall₂ Token.Written ts texts →
      tokens (" ".intercalate texts).toList = .ok (ts ++ [.endOfInput]) := by
  constructor
  · induction ts with
    | nil => exact ⟨[], .nil⟩
    | cons t ts ih =>
      obtain ⟨ht, hts⟩ := List.forall_mem_cons.1 h
      obtain ⟨text, htext⟩ := Token.exists_written ht
      obtain ⟨texts, htexts⟩ := ih hts
      exact ⟨text :: texts, .cons htext htexts⟩
  · intro texts htexts
    have hlexed : List.Forall₂ Lexed ts (texts.map String.toList) :=
      List.forall₂_map_right_iff.2 (htexts.imp fun _ _ => Token.lexed_of_written)
    rw [String.toList_intercalate]
    exact tokensFrom_join hlexed 0

/-- A keyword in mixed case, the greatest numbers, and one text with both quotes in it in either quote. -/
theorem tokens_written_bothQuotes :
    let ts : List Token := [.not, .identifier "_x1", .ne, .placeholder 18446744073709551615, .lt,
      .integer 9223372036854775807, .string "it's \"so\"", .string "it's \"so\""]
    (∀ t ∈ ts, t.Writable) ∧
      tokens "nOt _x1 != ?18446744073709551615 < 9223372036854775807 'it''s \"so\"' \"it's \"\"so\"\"\"".toList =
        .ok (ts ++ [.endOfInput]) := by
  intro ts
  have hname : Token.isName "_x1" = true := by decide
  have hposition : 0 < 18446744073709551615 ∧ 18446744073709551615 < Nat.pow 2 64 := by decide
  have hlong : 0 ≤ (9223372036854775807 : Long).toInt := by decide
  have hts : ∀ t ∈ ts, t.Writable := by
    simp only [ts, List.forall_mem_cons]
    exact ⟨trivial, hname, trivial, hposition, trivial, hlong, trivial, trivial, nofun⟩
  have hnot : Token.Written .not "nOt" := .keyword (by decide)
  have hplaceholder := Token.Written.placeholder hposition.1 hposition.2
  have hinteger := Token.Written.integer hlong
  have hsingle := Token.Written.string (q := '\'') "it's \"so\"" (by decide)
  have hdouble := Token.Written.string (q := '"') "it's \"so\"" (by decide)
  have hread := (tokens_written hts).2 _ (.cons hnot (.cons (.name hname) (.cons .unequal (.cons hplaceholder
    (.cons (.sign rfl) (.cons hinteger (.cons hsingle (.cons hdouble .nil))))))))
  refine ⟨hts, ?_⟩
  rw [← hread]
  exact congrArg tokens (by decide +kernel)

end Lexer

end FragmentEngine
