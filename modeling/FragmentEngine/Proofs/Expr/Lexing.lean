import FragmentEngine.Expr.Parser
import FragmentEngine.Proofs.Outcome
import FragmentEngine.Proofs.Text.Blank
import FragmentEngine.Proofs.Text.Run
/-!
# Spelled tokens

Tokens written out with a blank behind each are cut apart again.
-/

namespace FragmentEngine

namespace Lexer

theorem tokensFrom_blank {cs : List Char} (h : ∀ c ∈ cs, Text.isBlank c = true) (pos : Nat) :
    tokensFrom pos 0 cs = .ok [.endOfInput] := by
  induction cs generalizing pos with
  | nil => rfl
  | cons c cs ih =>
    rw [tokensFrom, if_pos (h c List.mem_cons_self)]
    exact ih (fun c mem => h c (List.mem_cons_of_mem _ mem)) (pos + 1)

/-- A character that is no blank starts a token. -/
theorem tokensFrom_visible {c : Char} (pos : Nat) (hc : Text.isBlank c = false) (rest : List Char) :
    tokensFrom pos 0 (c :: rest) =
      lexeme pos c rest >>= fun lexed => (tokensFrom (pos + 1) lexed.2 rest).map (lexed.1 :: ·) := by
  rw [tokensFrom, hc]
  rfl

theorem tokensFrom_ne_nil {pos skip : Nat} {cs : List Char} : tokensFrom pos skip cs ≠ .ok [] := by
  induction cs generalizing pos skip with
  | nil => cases skip <;> exact nofun
  | cons c cs ih =>
    cases skip with
    | succ skip => exact ih
    | zero =>
      cases hc : Text.isBlank c with
      | true =>
        rw [tokensFrom, if_pos hc]
        exact ih
      | false =>
        rw [tokensFrom_visible pos hc]
        intro h
        obtain ⟨_, -, h⟩ := Outcome.bind_eq_ok.1 h
        obtain ⟨_, -, h⟩ := Outcome.map_eq_ok.1 h
        cases h

/-- A text without tokens is blank. -/
theorem blank_of_tokensFrom {pos : Nat} {cs : List Char} (h : tokensFrom pos 0 cs = .ok [.endOfInput]) :
    ∀ c ∈ cs, Text.isBlank c = true := by
  induction cs generalizing pos with
  | nil => nofun
  | cons c cs ih =>
    cases hc : Text.isBlank c with
    | true =>
      rw [tokensFrom, if_pos hc] at h
      exact List.forall_mem_cons.2 ⟨hc, ih h⟩
    | false =>
      rw [tokensFrom_visible pos hc] at h
      obtain ⟨⟨t, more⟩, -, h⟩ := Outcome.bind_eq_ok.1 h
      obtain ⟨ts, hts, h⟩ := Outcome.map_eq_ok.1 h
      cases h
      exact absurd hts tokensFrom_ne_nil

theorem tokensFrom_skip (pos : Nat) (taken rest : List Char) :
    tokensFrom pos taken.length (taken ++ rest) = tokensFrom (pos + taken.length) 0 rest := by
  induction taken generalizing pos with
  | nil => rfl
  | cons c taken ih =>
    rw [List.length_cons, List.cons_append, tokensFrom, ih, Nat.add_assoc, Nat.add_comm 1]

/-! ## Signs -/

/-- The characters that are tokens of their own or start some. -/
def signs : List Char := ['(', ')', ',', '.', '+', '-', '*', '/', '%', '=', '<', '>', '!', '?']

/-- A test that fails on the signs is passed by other characters only. -/
theorem not_sign_of {p : Char → Bool} {c : Char} (hnone : signs.all (fun d => !p d) = true) (hc : p c = true) :
    c ∉ signs := by
  intro mem
  have h := List.all_eq_true.1 hnone c mem
  rw [hc] at h
  cases h

/-- What starts with no sign is a string, a number or a word. -/
theorem lexeme_of_not_sign (pos : Nat) {c : Char} (h : c ∉ signs) (rest : List Char) : lexeme pos c rest =
    if c = '\'' ∨ c = '"' then
      match quoted c rest with
      | some (text, n) => .ok (.string (String.ofList text), n)
      | none => .error (.unterminatedString pos)
    else if c.isDigit then
      match number? (numberSpan false (c :: rest)).1 (numberSpan false (c :: rest)).2 with
      | some t => .ok (t, (numberSpan false (c :: rest)).1.length - 1)
      | none => .error (.invalidNumber pos)
    else if startsName c then
      .ok (word (c :: rest.takeWhile continuesName), (rest.takeWhile continuesName).length)
    else .error (.unexpectedCharacter c pos) := by
  unfold lexeme
  split
  case h_15 => rfl
  all_goals exact absurd (by decide) h

/-! ## Where tokens end -/

variable {c : Char} {cs rest : List Char}

/-- Nothing, or a text that starts with a blank. -/
def Apart (rest : List Char) : Prop := ∀ c, rest.head? = some c → Text.isBlank c = true

theorem apart_nil : Apart [] := nofun

theorem apart_blank (rest : List Char) : Apart (' ' :: rest) := by
  intro c h
  cases h
  decide

/-- A test that fails on the blanks is not passed by the character behind a token. -/
theorem Apart.head_not {p : Char → Bool} (hnone : Text.blankPoints.all (fun n => !p (Char.ofNat n)) = true)
    (h : Apart rest) : ∀ c, rest.head? = some c → p c = false :=
  fun c hc => Text.not_of_points hnone (Text.mem_blankPoints (h c hc))

theorem Apart.head_ne {d : Char} (hd : Text.isBlank d = false) (h : Apart rest) : ∀ c, rest.head? = some c → c ≠ d := by
  rintro c hc rfl
  rw [h c hc] at hd
  cases hd

/-! ## Texts of tokens -/

/-- The token is what is read first off the text, if nothing or a blank follows. -/
def Lexed (t : Token) (text : List Char) : Prop :=
  ∀ pos rest, Apart rest → tokensFrom pos 0 (text ++ rest) = (tokensFrom (pos + text.length) 0 rest).map (t :: ·)

theorem Lexed.of_lexeme {t : Token} (visible : Text.isBlank c = false)
    (lexed : ∀ pos rest, Apart rest → lexeme pos c (cs ++ rest) = .ok (t, cs.length)) : Lexed t (c :: cs) := by
  intro pos rest h
  rw [List.cons_append, tokensFrom_visible pos visible, lexed pos rest h, Outcome.ok_bind, tokensFrom_skip,
    List.length_cons, Nat.add_assoc, Nat.add_comm 1]

/-- It is all that is read off its text. -/
theorem Lexed.tokens {t : Token} {text : List Char} (h : Lexed t text) : tokens text = .ok [t, .endOfInput] := by
  have hread := h 0 [] apart_nil
  rw [List.append_nil] at hread
  rw [Lexer.tokens, hread]
  rfl

/-- The token is what is read first off its own text with a blank behind it. -/
def Spelled (t : Token) : Prop :=
  ∀ pos rest, tokensFrom pos 0 (t.display.toList ++ ' ' :: rest) =
    (tokensFrom (pos + t.display.toList.length + 1) 0 rest).map (t :: ·)

theorem Spelled.of_lexeme {t : Token} {c : Char} {taken : List Char} (display : t.display.toList = c :: taken)
    (visible : Text.isBlank c = false)
    (lexed : ∀ pos rest, lexeme pos c (taken ++ ' ' :: rest) = .ok (t, taken.length)) : Spelled t := by
  intro pos rest
  have first : tokensFrom pos 0 (c :: (taken ++ ' ' :: rest)) =
      (tokensFrom (pos + 1) taken.length (taken ++ ' ' :: rest)).map (t :: ·) := by
    rw [tokensFrom_visible pos visible, lexed]
    rfl
  rw [display, List.cons_append, first, tokensFrom_skip]
  rw [tokensFrom, if_pos (by decide), List.length_cons]
  rw [show pos + 1 + taken.length + 1 = pos + (taken.length + 1) + 1 by omega]

/-- The texts of tokens, each with a blank behind it. -/
def spell (ts : List Token) : List Char := ts.flatMap fun t => t.display.toList ++ [' ']

theorem spell_append (ts us : List Token) : spell (ts ++ us) = spell ts ++ spell us := List.flatMap_append

theorem tokens_spell {ts : List Token} (h : ∀ t ∈ ts, Spelled t) : tokens (spell ts) = .ok (ts ++ [.endOfInput]) := by
  have at_pos : ∀ pos, tokensFrom pos 0 (spell ts) = .ok (ts ++ [.endOfInput]) := by
    induction ts with
    | nil => exact fun _ => rfl
    | cons t ts ih =>
      intro pos
      have others := ih fun t mem => h t (List.mem_cons_of_mem _ mem)
      have first := h t List.mem_cons_self pos (spell ts)
      rw [others] at first
      simpa [spell, Except.map] using first
  exact at_pos 0

end Lexer

/-- A text with tokens is parsed by its tokens. -/
theorem Expr.parse_eq {text : String} {ts : List Token} (h : Lexer.tokens text.toList = .ok ts)
    (visible : ts ≠ [.endOfInput]) : parse text = ofTokens ts := by
  have kept : (Text.trim text.toList).isEmpty = false := by
    rw [List.isEmpty_eq_false_iff]
    intro nothing
    rw [Lexer.tokens, Lexer.tokensFrom_blank (Text.trim_eq_nil nothing)] at h
    cases h
    exact visible rfl
  simp only [parse, kept, h]
  rfl

theorem Expr.ofTokens_of_parse {text : String} {e : Expr} (h : parse text = .ok e) :
    ∃ ts, Lexer.tokens text.toList = .ok ts ∧ ofTokens ts = .ok e := by
  unfold parse at h
  split at h
  · cases h
  · obtain ⟨ts, lexed, h⟩ := Outcome.bind_eq_ok.1 h
    cases ok : Lexer.tokens text.toList with
    | error e =>
      rw [ok] at lexed
      cases lexed
    | ok ts' =>
      rw [ok] at lexed
      cases lexed
      exact ⟨ts, rfl, h⟩

end FragmentEngine
