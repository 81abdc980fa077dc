import FragmentEngine.Proofs.Expr.Invariant
import FragmentEngine.Proofs.Expr.RoundTrip
import FragmentEngine.Proofs.Expr.WrittenTokens
/-!
# Trees of accepted texts

The tokens of a text are such as can be written, and so the tree of an accepted text is one that can be printed. Its
numbers are those of the text, none of them below zero, with the minus signs before them folded in. This takes no long
out of its range, since the one long without an opposite is not read in the first place.
-/

namespace FragmentEngine

/-! ## Tokens -/

/-- A number without a minus sign is not below zero. -/
theorem Decimal.nonneg_of_long? {cs : List Char} {n : Long} (plain : ∀ rest, cs ≠ '-' :: rest)
    (h : long? cs = some n) : 0 ≤ n.toInt := by
  obtain ⟨k, read, fits⟩ := Option.bind_eq_some_iff.1 h
  rw [Long.ofInt?_eq_some fits]
  unfold signed? at read
  split at read
  · exact absurd rfl (plain _)
  · obtain ⟨m, -, rfl⟩ := Option.map_eq_some_iff.1 read
    exact Int.natCast_nonneg m

namespace Lexer

variable {pos more : Nat} {c : Char} {cs rest : List Char} {t : Token}

theorem writable_of_sign (sign : c ∈ signs) (h : lexeme pos c rest = .ok (t, more)) : t.Writable := by
  unfold lexeme at h
  split at h
  -- the question mark, what is no sign, and the signs that look at the character behind them
  case h_14 =>
    dsimp only at h
    split at h
    next n read =>
      cases h
      obtain ⟨count, positive⟩ := Option.filter_eq_some_iff.1 read
      obtain ⟨-, fits⟩ := Option.filter_eq_some_iff.1 count
      exact ⟨of_decide_eq_true positive, of_decide_eq_true fits⟩
    next => cases h
  case h_15 => simp_all [signs]
  case h_11 | h_12 | h_13 => split at h <;> cases h <;> exact trivial
  all_goals
    cases h
    exact trivial

theorem writable_of_number (digit : c.isDigit = true)
    (h : number? (numberSpan false (c :: rest)).1 (numberSpan false (c :: rest)).2 = some t)
    (whole : ∀ x, t ≠ .float x) : t.Writable := by
  rw [numberSpan_digit digit] at h
  unfold number? at h
  split at h
  · obtain ⟨x, -, rfl⟩ := Option.map_eq_some_iff.1 h
    exact absurd rfl (whole x)
  · obtain ⟨n, read, rfl⟩ := Option.map_eq_some_iff.1 h
    refine Decimal.nonneg_of_long? ?_ read
    rintro _ ⟨⟩
    cases digit

theorem writable_of_word (starts : startsName c = true) (continues : ∀ d ∈ cs, continuesName d = true) :
    (word (c :: cs)).Writable := by
  unfold word
  cases keyword : Token.keyword? (c :: cs) with
  | none =>
    show Token.isName (String.ofList (c :: cs)) = true
    unfold Token.isName
    rw [String.toList_ofList]
    dsimp only
    rw [keyword, starts, List.all_eq_true.2 continues]
    rfl
  | some t =>
    unfold Token.keyword? at keyword
    split at keyword <;> cases keyword <;> exact trivial

theorem writable_of_lexeme (h : lexeme pos c rest = .ok (t, more)) (whole : ∀ x, t ≠ .float x) : t.Writable := by
  by_cases sign : c ∈ signs
  · exact writable_of_sign sign h
  · rw [lexeme_of_not_sign pos sign] at h
    split at h
    · split at h <;> cases h
      exact trivial
    split at h
    next digit =>
      split at h
      next read =>
        cases h
        exact writable_of_number digit read whole
      next => cases h
    split at h
    next starts =>
      cases h
      exact writable_of_word starts fun d => List.mem_takeWhile_imp
    next => cases h

/-- The tokens of a text can be written, except for floats and the end of the input. -/
theorem writable_of_tokensFrom {pos skip : Nat} {ts : List Token} (h : tokensFrom pos skip cs = .ok ts) :
    ∀ t ∈ ts, (∀ x, t ≠ .float x) → t ≠ .endOfInput → t.Writable := by
  induction cs generalizing pos skip ts with
  | nil =>
    intro t mem _ inside
    cases skip <;> cases h <;> exact absurd (List.mem_singleton.1 mem) inside
  | cons c cs ih =>
    cases skip with
    | succ skip => exact ih h
    | zero =>
      cases blank : Text.isBlank c with
      | true =>
        rw [tokensFrom, if_pos blank] at h
        exact ih h
      | false =>
        rw [tokensFrom_visible pos blank] at h
        obtain ⟨⟨t, more⟩, first, h⟩ := Outcome.bind_eq_ok.1 h
        obtain ⟨ts', others, rfl⟩ := Outcome.map_eq_ok.1 h
        exact List.forall_mem_cons.2 ⟨fun whole _ => writable_of_lexeme first whole, ih others⟩

end Lexer

/-! ## Printable trees -/

/-- Every long but the least has an opposite. -/
theorem Long.ofInt?_neg {n : Long} (bounded : -greatest ≤ n.toInt) : ofInt? (-n.toInt) = some (-n) := by
  have low : least ≤ -n.toInt := by
    have high := toInt_le_greatest n
    simp only [least, greatest] at high ⊢
    omega
  have high : -n.toInt ≤ greatest := by omega
  rw [ofInt?, if_pos ⟨low, high⟩, Int64.ofInt_neg, Int64.ofInt_toInt]

namespace Expr

variable {e : Expr}

theorem Printable.negated (h : e.Printable) : (Parse.negated e).Printable := by
  by_cases number : e.IsNumber
  · cases h with
    | @long n bounded =>
      refine .long ?_
      have high := Long.toInt_le_greatest n
      rw [Long.ofInt?_eq_some (Long.ofInt?_neg bounded)]
      omega
    | double x => exact .double x.neg
    | _ => exact number.elim
  · rw [Parse.negated_of_not_number number]
    exact .neg h number

end Expr

namespace Parse

variable {ts : List Token}

theorem preserved_printable (written : ∀ t ∈ ts, (∀ x, t ≠ .float x) → t ≠ .endOfInput → t.Writable) :
    Preserved ts (fun _ _ e => e.Printable) (fun _ _ _ e => e.Printable) where
  integer _ n mem := by
    have nonneg : 0 ≤ n.toInt := written _ mem nofun nofun
    refine .long ?_
    simp only [Long.greatest]
    omega
  float _ x _ := .double x
  string _ s _ := .str s
  placeholder _ n mem := .placeholder (written _ mem nofun nofun).1
  path _ parts nonempty names := .path nonempty fun part mem => written _ (names part mem) nofun nofun
  call _ f _ h := .call f fun e mem => (h e mem).2
  parens _ _ _ h := h
  plus _ _ _ h := h
  minus _ _ _ h := h.negated
  single _ _ h := h
  comparison _ op _ _ _ left right := .binary op left right
  plain _ _ h := h
  not _ _ _ h := .not h
  first _ _ _ _ h := h
  more _ _ _ op _ _ _ _ _ left right := .binary op left right
  whole _ _ _ _ _ _ h := h

end Parse

namespace Expr

variable {e s : Expr}

/-- Every text that is accepted is parsed as a tree that can be printed. -/
theorem printable_of_parse {text : String} (h : parse text = .ok e) : e.Printable := by
  obtain ⟨ts, read, parsed⟩ := ofTokens_of_parse h
  exact (Parse.preserved_printable (Lexer.writable_of_tokensFrom read)).ofTokens parsed

/-! ## Signs -/

/-- The arguments or operands of a tree. -/
def children : Expr → List Expr
  | .literal _ | .variable _ => []
  | .call _ args => args
  | .binary l _ r => [l, r]
  | .unary _ operand => [operand]

/-- A tree stands somewhere in another one, or is that one. -/
inductive Within : Expr → Expr → Prop where
  | self (e : Expr) : Within e e
  | inside {s t e : Expr} (child : t ∈ e.children) (within : Within s t) : Within s e

theorem Printable.of_mem_children (h : e.Printable) (mem : s ∈ e.children) : s.Printable := by
  cases h with
  | long | double | str | placeholder | path => exact absurd mem List.not_mem_nil
  | call f printable => exact printable s mem
  | binary op left right =>
    rcases List.mem_cons.1 mem with rfl | mem
    · exact left
    · rw [List.mem_singleton.1 mem]
      exact right
  | not operand | neg operand =>
    rw [List.mem_singleton.1 mem]
    exact operand

/-- What can be printed has printable trees in it only. -/
theorem Printable.of_within (h : e.Printable) (within : s.Within e) : s.Printable := by
  induction within with
  | self => exact h
  | inside child _ ih => exact ih (h.of_mem_children child)

theorem Printable.bounded {n : Long} (h : (literal (.long n)).Printable) : -Long.greatest ≤ n.toInt := by
  cases h with
  | long bounded => exact bounded

theorem Printable.not_isNumber (h : (unary .neg e).Printable) : ¬e.IsNumber := by
  cases h with
  | neg _ plain => exact plain

end Expr

/-- The longs in the tree of a text are at most `2 ^ 63 - 1` in magnitude, and no number stands under a minus sign. A
long that is read behind a minus sign, wherever in a text and under however many signs and parentheses, has an opposite,
and this is what is read with the sign. -/
theorem Expr.folded_of_parse (text : String) :
    (∀ e, parse text = .ok e →
      (∀ n, (literal (.long n)).Within e → n.toInt.natAbs ≤ Nat.pow 2 63 - 1) ∧
      ∀ operand, (unary .neg operand).Within e → ¬operand.IsNumber) ∧
    ∀ ts rest, Lexer.tokens text.toList = .ok ts → .minus :: rest <:+ ts → ∀ k d n c,
      (Parse.nested (Parse.levels k).signed : Parse Expr).run ⟨rest, d⟩ = .ok (literal (.long n), c) →
      ∃ m, Long.ofInt? (-n.toInt) = some m ∧
        (Parse.signed (Parse.levels k) : Parse Expr).run ⟨.minus :: rest, d⟩ = .ok (literal (.long m), c) := by
  refine ⟨fun e h => ?_, fun ts rest read behind k d n c run => ?_⟩
  · have printable := printable_of_parse h
    refine ⟨fun n within => ?_, fun operand within => (printable.of_within within).not_isNumber⟩
    have low := (printable.of_within within).bounded
    have high := Long.toInt_le_greatest n
    simp only [Long.greatest] at low high
    show n.toInt.natAbs ≤ 9223372036854775807
    omega
  · have among : rest ⊆ ts := fun t mem => behind.subset (List.mem_cons_of_mem _ mem)
    have given := (Parse.preserved_printable (Lexer.writable_of_tokensFrom read)).gives_levels k
    have operand : Parse.Yields ts d (Parse.nested (Parse.levels k).signed) Printable :=
      .nested fun room => given.signed (d + 1) room
    obtain ⟨-, -, printable⟩ := operand ⟨rest, d⟩ _ rfl among run
    refine ⟨-n, Long.ofInt?_neg printable.bounded, ?_⟩
    rw [Parse.run_signed_minus, run]
    rfl

/-- Three minus signs before the greatest long, and a call and a text under minus signs of their own. -/
theorem Expr.folded_of_parse_manySigns :
    let text := "- ( - ( + - 9223372036854775807 ) ) * - f ( - 'a' )"
    let call : Expr := .call "f" [.unary .neg (.literal (.str "a"))]
    let e : Expr := .binary (.literal (.long (-9223372036854775807))) .mul (.unary .neg call)
    let rest : List Token := [.leftParen, .minus, .leftParen, .plus, .minus, .integer 9223372036854775807, .rightParen,
      .rightParen, .asterisk, .minus, .identifier "f", .leftParen, .minus, .string "a", .rightParen, .endOfInput]
    let c : Cursor := ⟨rest.drop 8, 0⟩
    parse text = .ok e ∧ Lexer.tokens text.toList = .ok (.minus :: rest) ∧
      (Parse.nested (Parse.levels 256).signed : Parse Expr).run ⟨rest, 0⟩ =
        .ok (literal (.long 9223372036854775807), c) ∧
      (-9223372036854775807 : Long).toInt.natAbs ≤ Nat.pow 2 63 - 1 ∧ ¬call.IsNumber ∧
      ∃ m, Long.ofInt? (-(9223372036854775807 : Long).toInt) = some m ∧
        (Parse.signed (Parse.levels 256) : Parse Expr).run ⟨.minus :: rest, 0⟩ = .ok (literal (.long m), c) := by
  intro text call e rest c
  have parsed : parse text = .ok e := by decide +kernel
  have read : Lexer.tokens text.toList = .ok (.minus :: rest) := by decide +kernel
  have operand : (Parse.nested (Parse.levels 256).signed : Parse Expr).run ⟨rest, 0⟩ =
      .ok (literal (.long 9223372036854775807), c) := by decide +kernel
  have least : (literal (.long (-9223372036854775807))).Within e := .inside List.mem_cons_self (.self _)
  have negated : (unary .neg call).Within e := .inside (List.mem_cons_of_mem _ List.mem_cons_self) (.self _)
  obtain ⟨accepted, signs⟩ := folded_of_parse text
  obtain ⟨longs, operands⟩ := accepted e parsed
  exact ⟨parsed, read, operand, longs _ least, operands _ negated,
    signs _ rest read List.suffix_rfl 256 0 _ c operand⟩

-- the digits of the long without an opposite are out of range, and no sign is looked at
example : Expr.parse "-9223372036854775808" = .error (.parse (.invalidNumber 1)) := by decide +kernel

end FragmentEngine
