import FragmentEngine.Proofs.Expr.Parsing
import FragmentEngine.Proofs.Expr.Printing
/-!
# Printed expressions read back

The parser of each level takes the tokens of a tree off the front of any others that cannot continue it, and gives
the tree, as long as the nesting stays within the limit; else it refuses the nesting and nothing else.
-/

namespace FragmentEngine.Parse

open Outcome

/-! ## Tokens around a tree -/

theorem opAt_token (l : Nat) (op : BinaryOp) : opAt l op.token = if op.level = l then some op else none := by
  match l with
  | 0 | 1 | 2 | 3 | 4 | 5 => cases op <;> rfl
  | l + 6 =>
    have le := op.level_le
    have ne : op.level ≠ l + 6 := by omega
    rw [if_neg ne]
    rfl

/-- A token that can come behind a tree of a level: it ends an operand or is a looser operator. -/
inductive Follows (l : Nat) : Token → Prop where
  | closing : Follows l .rightParen
  | comma : Follows l .comma
  | ending : Follows l .endOfInput
  | op (op : BinaryOp) (looser : op.level < l) : Follows l op.token

namespace Follows

variable {l m : Nat} {t : Token}

theorem mono (h : Follows l t) (le : l ≤ m) : Follows m t := by
  cases h with
  | closing => exact .closing
  | comma => exact .comma
  | ending => exact .ending
  | op op looser => exact .op op (by omega)

theorem opAt_eq_none (h : Follows l t) : opAt l t = none := by
  cases h with
  | op op looser => rw [opAt_token, if_neg (by omega)]
  | _ => 
    match l with
    | 0 | 1 | 2 | 3 | 4 | 5 => rfl
    | _ + 6 => rfl

theorem ne_leftParen (h : Follows l t) : t ≠ .leftParen := by
  cases h with
  | op op _ => cases op <;> simp [BinaryOp.token]
  | _ => simp

theorem ne_dot (h : Follows l t) : t ≠ .dot := by
  cases h with
  | op op _ => cases op <;> simp [BinaryOp.token]
  | _ => simp

end Follows

/-- A token starts trees of the levels below. A closing parenthesis starts none. -/
def startLimit : Token → Nat
  | .rightParen => 0
  | .not => 3
  | .plus | .minus => 7
  | _ => 8

/-- The tokens of `e` at level `l` are read as `e` whatever may follow, if the parser may go `need` levels deeper;
else the nesting is refused. -/
structure Reads (l : Nat) (ts : List Token) (need : Nat) (e : Expr) : Prop where
  starts : ∃ t rest, ts = t :: rest ∧ l < startLimit t
  run : ∀ n d rest, d ≤ maxDepth → maxDepth ≤ n + d → Follows l (rest.headD .endOfInput) →
    (atLevel l (levels n) : Parse Expr).run ⟨ts ++ rest, d⟩ =
      if d + need ≤ maxDepth then .ok (e, ⟨rest, d⟩) else .error tooDeep

/-- A chain of level `l` has been read up to `e`, which has `k` operators of the chain, and goes on from there. -/
structure ReadsOn (l : Nat) (ts : List Token) (need k : Nat) (e : Expr) : Prop where
  starts : ∃ t rest, ts = t :: rest ∧ l < startLimit t
  short : k ≤ need
  run : ∀ n d rest, d ≤ maxDepth → maxDepth ≤ n + d → Follows (l + 1) (rest.headD .endOfInput) →
    (atLevel l (levels n) : Parse Expr).run ⟨ts ++ rest, d⟩ =
      if d + need ≤ maxDepth then
        (chainTail (opAt l) (atLevel (l + 1) (levels n) : Parse Expr) (maxDepth + 1 - k) e).run ⟨rest, d + k⟩ >>= fun r =>
          .ok (r.1, ⟨r.2.rest, d⟩)
      else .error tooDeep

namespace ReadsOn

variable {l need k need' : Nat} {ts ts' : List Token} {e e' : Expr}

theorem single (chains : Chains l) (h : Reads (l + 1) ts need e) : ReadsOn l ts need 0 e := by
  obtain ⟨t, rest, head, starts⟩ := h.starts
  refine ⟨⟨t, rest, head, by omega⟩, Nat.zero_le _, fun n d rest low high follows => ?_⟩
  rw [atLevel_of_chains chains, run_chain, h.run n d rest low high follows]
  split <;> rfl

theorem snoc (h : ReadsOn l ts need k e) (op : BinaryOp) (level : op.level = l)
    (right : Reads (l + 1) ts' need' e') :
    ReadsOn l (ts ++ op.token :: ts') (max need (k + 1 + need')) (k + 1) (.binary e op e') := by
  obtain ⟨t, tail, head, starts⟩ := h.starts
  refine ⟨⟨t, tail ++ op.token :: ts', by rw [head, List.cons_append], starts⟩, by omega,
    fun n d rest low high follows => ?_⟩
  -- the chain so far is followed by one of its own operators, which no operand of it can take
  have follows' : Follows (l + 1) ((op.token :: (ts' ++ rest)).headD .endOfInput) := .op op (by omega)
  have continued : opAt l ((op.token :: (ts' ++ rest)).headD .endOfInput) = some op := by
    rw [List.headD_cons, opAt_token, if_pos level]
  rw [List.append_assoc, List.cons_append, h.run n d _ low high follows']
  by_cases fits : d + need ≤ maxDepth
  · have short := h.short
    have bound : maxDepth + 1 - k = (maxDepth + 1 - (k + 1)) + 1 := by omega
    rw [if_pos fits, bound, run_chainTail_op continued]
    by_cases deeper : d + k < maxDepth
    · rw [if_pos deeper, List.tail_cons, right.run n (d + k + 1) rest (by omega) (by omega) follows]
      by_cases fits' : d + k + 1 + need' ≤ maxDepth
      · rw [if_pos fits', if_pos (by omega)]
        rfl
      · rw [if_neg fits', if_neg (by omega)]
        rfl
    · rw [if_neg deeper, if_neg (by omega)]
      rfl
  · rw [if_neg fits, if_neg (by omega)]

theorem close (h : ReadsOn l ts need k e) : Reads l ts need e := by
  refine ⟨h.starts, fun n d rest low high follows => ?_⟩
  rw [h.run n d rest low high (follows.mono (Nat.le_succ l)), run_chainTail_end follows.opAt_eq_none]
  rfl

end ReadsOn

namespace Reads

variable {l m need need' : Nat} {ts ts' : List Token} {e e' : Expr}

/-! ## Looser levels -/

theorem negation_of_comparison (h : Reads 3 ts need e) : Reads 2 ts need e := by
  obtain ⟨t, tail, rfl, starts⟩ := h.starts
  refine ⟨⟨t, tail, rfl, by omega⟩, fun n d rest low high follows => ?_⟩
  have ne : t ≠ .not := by
    rintro rfl
    simp only [startLimit] at starts
    omega
  rw [← h.run n d rest low high (follows.mono (by omega))]
  simp only [atLevel, negation, StateT.run_bind, run_current, ok_bind, List.cons_append, List.headD_cons, if_neg ne]

theorem comparison_of_additive (h : Reads 4 ts need e) : Reads 3 ts need e := by
  obtain ⟨t, tail, head, starts⟩ := h.starts
  refine ⟨⟨t, tail, head, by omega⟩, fun n d rest low high follows => ?_⟩
  have no : comparisonOp? (rest.headD .endOfInput) = none := follows.opAt_eq_none
  have operand := h.run n d rest low high (follows.mono (by omega))
  simp only [atLevel] at operand
  simp only [atLevel, comparison, StateT.run_bind, operand]
  split
  · simp only [ok_bind, run_current, no]
    rfl
  · rfl

theorem signed_of_primary (h : Reads 7 ts need e) : Reads 6 ts need e := by
  obtain ⟨t, tail, rfl, starts⟩ := h.starts
  refine ⟨⟨t, tail, rfl, by omega⟩, fun n d rest low high follows => ?_⟩
  rw [← h.run n d rest low high (follows.mono (by omega))]
  simp only [atLevel, signed, StateT.run_bind, run_current, ok_bind, List.cons_append, List.headD_cons]
  cases t <;> first | rfl | (simp only [startLimit] at starts; omega)

/-- What is read at a level is read at the next looser one. -/
theorem loosen (h : Reads (l + 1) ts need e) (le : l ≤ 6) : Reads l ts need e := by
  match l with
  | 0 => exact (ReadsOn.single (.inl rfl) h).close
  | 1 => exact (ReadsOn.single (.inr (.inl rfl)) h).close
  | 2 => exact h.negation_of_comparison
  | 3 => exact h.comparison_of_additive
  | 4 => exact (ReadsOn.single (.inr (.inr (.inl rfl))) h).close
  | 5 => exact (ReadsOn.single (.inr (.inr (.inr rfl))) h).close
  | 6 => exact h.signed_of_primary
  | l + 7 => omega

theorem mono (h : Reads m ts need e) (le : l ≤ m) (top : m ≤ 7) : Reads l ts need e := by
  induction m with
  | zero => rwa [Nat.le_zero.1 le]
  | succ m ih =>
    rcases Nat.le_succ_iff.1 le with le | rfl
    · exact ih (h.loosen (by omega)) le (by omega)
    · exact h

/-! ## One level deeper -/

/-- A parser that is called one level further in reads what its own level reads there. -/
theorem deeper (h : Reads l ts need e) (inner : Inner Parse → Parse Expr)
    (tied : ∀ n, inner (levels (n + 1)) = atLevel l (levels n)) {n d : Nat} (rest : List Token)
    (low : d ≤ maxDepth) (high : maxDepth ≤ n + d) (follows : Follows l (rest.headD .endOfInput)) :
    (nested (inner (levels n))).run ⟨ts ++ rest, d⟩ =
      if d + (need + 1) ≤ maxDepth then .ok (e, ⟨rest, d⟩) else .error tooDeep := by
  rw [run_nested]
  by_cases room : d < maxDepth
  · obtain ⟨n, rfl⟩ : ∃ m, n = m + 1 := ⟨n - 1, by omega⟩
    rw [if_pos room, tied, h.run n (d + 1) rest (by omega) (by omega) follows]
    by_cases fits : d + 1 + need ≤ maxDepth
    · rw [if_pos fits, if_pos (by omega)]
      rfl
    · rw [if_neg fits, if_neg (by omega)]
      rfl
  · rw [if_neg room, if_neg (by omega)]

theorem parens (h : Reads 0 ts need e) : Reads 7 (.leftParen :: (ts ++ [.rightParen])) (need + 1) e := by
  refine ⟨⟨_, _, rfl, by decide⟩, fun n d rest low high _ => ?_⟩
  have inside := h.deeper Inner.expression (fun _ => rfl) (.rightParen :: rest) low high .closing
  simp only [atLevel, List.cons_append, run_primary_leftParen, StateT.run_bind, List.append_assoc, List.nil_append,
    inside]
  split
  · simp only [ok_bind, run_expect]
    rfl
  · rfl

theorem not (h : Reads 2 ts need e) : Reads 2 (.not :: ts) (need + 1) (.unary .not e) := by
  refine ⟨⟨_, _, rfl, by decide⟩, fun n d rest low high follows => ?_⟩
  simp only [atLevel, negation, StateT.run_bind, run_current, ok_bind, List.cons_append, List.headD_cons, if_true,
    run_advance, List.tail_cons, h.deeper Inner.negation (fun _ => rfl) rest low high follows]
  split <;> rfl

theorem minus (h : Reads 6 ts need e) : Reads 6 (.minus :: ts) (need + 1) (negated e) := by
  refine ⟨⟨_, _, rfl, by decide⟩, fun n d rest low high follows => ?_⟩
  simp only [atLevel, signed, StateT.run_bind, run_current, ok_bind, List.cons_append, List.headD_cons,
    run_advance, List.tail_cons, h.deeper Inner.signed (fun _ => rfl) rest low high follows]
  split <;> rfl

theorem comparison (h : Reads 4 ts need e) {op : BinaryOp} (level : op.level = 3) (h' : Reads 4 ts' need' e') :
    Reads 3 (ts ++ op.token :: ts') (max need need') (.binary e op e') := by
  obtain ⟨t, tail, head, starts⟩ := h.starts
  refine ⟨⟨t, tail ++ op.token :: ts', by rw [head, List.cons_append], by omega⟩, fun n d rest low high follows => ?_⟩
  have operator : comparisonOp? op.token = some op := by
    have read := opAt_token 3 op
    rwa [if_pos level] at read
  have left := h.run n d (op.token :: (ts' ++ rest)) low high (.op op (by omega))
  have right := h'.run n d rest low high (follows.mono (by omega))
  simp only [atLevel] at left right
  simp only [atLevel, Parse.comparison, StateT.run_bind, List.append_assoc, List.cons_append, left]
  by_cases fits : d + need ≤ maxDepth
  · simp only [if_pos fits, ok_bind, run_current, List.headD_cons, operator, StateT.run_bind, run_advance,
      List.tail_cons, right]
    by_cases fits' : d + need' ≤ maxDepth
    · rw [if_pos fits', if_pos (by omega)]
      rfl
    · rw [if_neg fits', if_neg (by omega)]
      rfl
  · rw [if_neg fits, if_neg (by omega)]
    rfl

/-! ## Literals and names -/

/-- A token that is an expression by itself. -/
theorem leaf {t : Token} (level : startLimit t = 8)
    (run : ∀ (inner : Inner Parse) rest d, (primary inner).run ⟨t :: rest, d⟩ = .ok (e, ⟨rest, d⟩)) : Reads 7 [t] 0 e := by
  refine ⟨⟨t, [], rfl, by omega⟩, fun n d rest low _ _ => ?_⟩
  rw [if_pos (by omega)]
  exact run _ rest d

theorem integer (n : Long) : Reads 7 [.integer n] 0 (.literal (.long n)) := leaf rfl fun _ _ _ => rfl

theorem float (x : Binary64) : Reads 7 [.float x] 0 (.literal (.double x)) := leaf rfl fun _ _ _ => rfl

theorem string (s : String) : Reads 7 [.string s] 0 (.literal (.str s)) := leaf rfl fun _ _ _ => rfl

theorem placeholder (n : Nat) : Reads 7 [.placeholder n] 0 (.variable s!"?{n}") := leaf rfl fun _ _ _ => rfl

/-- The parts of a dotted name are put together with the points between them. -/
theorem dotted_flatMap (name : String) (parts : List (List Char)) {rest : List Token}
    (follows : rest.headD .endOfInput ≠ .dot) :
    dotted name ((parts.flatMap fun part => [.dot, .identifier (String.ofList part)]) ++ rest) =
      .ok (String.ofList (name.toList ++ parts.flatMap ('.' :: ·)), rest) := by
  induction parts generalizing name with
  | nil =>
    simp only [List.flatMap_nil, List.nil_append, List.append_nil, String.ofList_toList]
    exact dotted_end follows name
  | cons part parts ih =>
    simp only [List.flatMap_cons, List.cons_append, List.nil_append, dotted]
    rw [ih]
    simp [String.toList_append]

theorem run_named_path (inner : Inner Parse) (name : String) {rest : List Token} {d : Nat}
    (follows : rest.headD .endOfInput ≠ .leftParen) :
    (named inner name).run ⟨rest, d⟩ = dotted name rest >>= fun r => .ok (.variable r.1, ⟨r.2, d⟩) := by
  simp only [named, StateT.run_bind, run_current, ok_bind, if_neg follows, run_path]
  cases dotted name rest <;> rfl

/-- A text is the runs without a character with that character between them. -/
theorem splitAll_join {sep : Char} {cs part : List Char} {parts : List (List Char)}
    (h : Text.splitAll (· == sep) cs = part :: parts) : part ++ parts.flatMap (sep :: ·) = cs := by
  induction cs generalizing part parts with
  | nil =>
    cases h
    rfl
  | cons c cs ih =>
    simp only [Text.splitAll] at h
    split at h
    next cut =>
      cases h
      obtain ⟨first, others, split⟩ := List.exists_cons_of_ne_nil (Text.splitAll_ne_nil (· == sep) cs)
      rw [split, List.flatMap_cons, List.nil_append, List.cons_append, ih split, beq_iff_eq.1 cut]
    next =>
      split at h
      next empty => exact absurd empty (Text.splitAll_ne_nil _ _)
      next split =>
        cases h
        rw [List.cons_append, ih split]

theorem path (name : String) : Reads 7 (Token.path (Text.splitAll (· == '.') name.toList)) 0 (.variable name) := by
  obtain ⟨part, parts, split⟩ := List.exists_cons_of_ne_nil (Text.splitAll_ne_nil (· == '.') name.toList)
  rw [split]
  refine ⟨⟨_, _, rfl, Nat.lt_add_one 7⟩, fun n d rest low _ follows => ?_⟩
  have noCall : ((parts.flatMap fun part => [Token.dot, .identifier (String.ofList part)]) ++ rest).headD .endOfInput
      ≠ .leftParen := by
    cases parts with
    | nil => exact follows.ne_leftParen
    | cons => simp
  simp only [Token.path, atLevel, List.cons_append, run_primary_identifier, ok_bind, run_named_path _ _ noCall,
    dotted_flatMap _ _ follows.ne_dot, String.toList_ofList, splitAll_join split, String.ofList_toList,
    if_pos (show d + 0 ≤ maxDepth from low)]

/-! ## Calls -/

theorem length_le_tokensAll {args : List Expr} (each : ∀ e ∈ args, Reads 0 e.tokens e.nesting e) :
    args.length ≤ (Expr.tokensAll args).length := by
  induction args with
  | nil => exact Nat.le_refl _
  | cons e rest ih =>
    obtain ⟨t, tail, head, -⟩ := (each e List.mem_cons_self).starts
    have others := ih fun e' he => each e' (List.mem_cons_of_mem e he)
    cases rest with
    | nil => simp [Expr.tokensAll, head]
    | cons e' rest =>
      simp only [Expr.tokensAll, head, List.length_append, List.length_cons] at others ⊢
      omega

theorem run_arguments {args : List Expr} (each : ∀ e ∈ args, Reads 0 e.tokens e.nesting e) (some : args ≠ [])
    {bound n d : Nat} (enough : args.length ≤ bound) (rest : List Token) (low : d ≤ maxDepth)
    (high : maxDepth ≤ n + d) :
    (arguments (levels n) bound : Parse (List Expr)).run ⟨Expr.tokensAll args ++ .rightParen :: rest, d⟩ =
      if d + Expr.nestingAll args ≤ maxDepth then .ok (args, ⟨.rightParen :: rest, d⟩) else .error tooDeep := by
  induction args generalizing bound with
  | nil => exact absurd rfl some
  | cons e others ih =>
    obtain ⟨bound, rfl⟩ : ∃ b, bound = b + 1 := ⟨bound - 1, by simp only [List.length_cons] at enough; omega⟩
    have first := each e List.mem_cons_self
    cases others with
    | nil =>
      have read := first.deeper Inner.expression (fun _ => rfl) (.rightParen :: rest) low high .closing
      simp only [arguments, StateT.run_bind, Expr.tokensAll, read, Expr.nestingAll, Nat.max_zero]
      split <;> rfl
    | cons e' others =>
      have read := first.deeper Inner.expression (fun _ => rfl)
        (.comma :: (Expr.tokensAll (e' :: others) ++ .rightParen :: rest)) low high .comma
      have enough' : (e' :: others).length ≤ bound := by
        simp only [List.length_cons] at enough ⊢
        omega
      have behind := ih (fun x hx => each x (List.mem_cons_of_mem e hx)) (by simp) enough'
      simp only [arguments, StateT.run_bind, Expr.tokensAll, List.append_assoc, List.cons_append, read]
      by_cases fits : d + (e.nesting + 1) ≤ maxDepth
      · simp only [if_pos fits, ok_bind, run_current, List.headD_cons, if_true, StateT.run_bind, run_advance,
          List.tail_cons, behind]
        by_cases fits' : d + Expr.nestingAll (e' :: others) ≤ maxDepth
        · rw [if_pos fits', if_pos (by rw [Expr.nestingAll]; omega)]
          rfl
        · rw [if_neg fits', if_neg (by rw [Expr.nestingAll]; omega)]
          rfl
      · rw [if_neg fits, if_neg (by rw [Expr.nestingAll]; omega)]
        rfl

theorem call (f : String) {args : List Expr} (each : ∀ e ∈ args, Reads 0 e.tokens e.nesting e) :
    Reads 7 (.identifier f :: .leftParen :: (Expr.tokensAll args ++ [.rightParen])) (Expr.nestingAll args)
      (.call f args) := by
  refine ⟨⟨_, _, rfl, Nat.lt_add_one 7⟩, fun n d rest low high _ => ?_⟩
  simp only [atLevel, List.cons_append, run_primary_identifier, List.append_assoc, List.nil_append]
  cases args with
  | nil =>
    rw [if_pos (show d + Expr.nestingAll [] ≤ maxDepth from low)]
    rfl
  | cons e others =>
    obtain ⟨t, tail, head, starts⟩ := (each e List.mem_cons_self).starts
    have opens : (Expr.tokensAll (e :: others) ++ .rightParen :: rest).headD .endOfInput ≠ .rightParen := by
      have ne : t ≠ .rightParen := by
        rintro rfl
        exact Nat.not_lt_zero 0 starts
      cases others <;> simpa [Expr.tokensAll, head] using ne
    have enough : (e :: others).length ≤ (Expr.tokensAll (e :: others) ++ .rightParen :: rest).length + 1 := by
      have le := length_le_tokensAll each
      rw [List.length_append]
      omega
    rw [run_named_arguments _ _ opens, run_argumentList, run_arguments each (by simp) enough rest low high]
    split
    · simp only [ok_bind, run_expect]
    · rfl

end Reads

/-! ## Trees -/

/-- The tokens of a tree are read at its own level, and a chain can go on behind them. -/
structure ReadsBack (e : Expr) : Prop where
  own : Reads e.level e.tokens e.nesting e
  chain : Chains e.level → ReadsOn e.level e.tokens e.nesting e.chainLength e

namespace ReadsBack

variable {e : Expr}

theorem ofOwn (own : Reads e.level e.tokens e.nesting e) (single : ¬Chains e.level) : ReadsBack e :=
  ⟨own, fun chains => absurd chains single⟩

/-- An operand is read at the level that is required of it. -/
theorem enclosed (h : ReadsBack e) {required : Nat} (top : required ≤ 7) :
    Reads required (Token.enclosed required e.level e.tokens) (Expr.enclosedNesting required e.level e.nesting) e := by
  unfold Token.enclosed Expr.enclosedNesting
  split
  next looser => exact (h.own.mono (Nat.zero_le _) e.level_le).parens.mono top (Nat.le_refl 7)
  next tight => exact h.own.mono (by omega) e.level_le

/-- A left operand is a chain of the same level, or the first operand of a chain. -/
theorem enclosedChain (h : ReadsBack e) {l : Nat} (chains : Chains l) :
    ReadsOn l (Token.enclosed l e.level e.tokens) (Expr.enclosedNesting l e.level e.nesting)
      (if e.level = l then e.chainLength else 0) e := by
  by_cases same : e.level = l
  · subst same
    simpa [Token.enclosed, Expr.enclosedNesting] using h.chain chains
  -- with another level than the chain's, parentheses are there below `l` as they would be below `l + 1`
  · have first : Reads (l + 1) (Token.enclosed l e.level e.tokens) (Expr.enclosedNesting l e.level e.nesting) e := by
      have top : l + 1 ≤ 7 := by rcases chains with rfl | rfl | rfl | rfl <;> omega
      have iff : e.level < l + 1 ↔ e.level < l := by omega
      have read := h.enclosed top
      simpa only [Token.enclosed, Expr.enclosedNesting, iff] using read
    rw [if_neg same]
    exact .single chains first

end ReadsBack

theorem negated_of_not_number {e : Expr} (plain : ¬e.IsNumber) : negated e = .unary .neg e := by
  cases e with
  | literal v => cases v <;> first | rfl | exact absurd trivial plain
  | _ => rfl

theorem readsBack_variable (name : String) (ts : List Token) (same : Token.ofVariable name = ts)
    (read : Reads 7 ts 0 (.variable name)) : ReadsBack (.variable name) :=
  .ofOwn (by simpa only [Expr.tokens, Expr.nesting, Expr.level, same] using read) (by simp [Chains, Expr.level])

theorem readsBack_binary {l r : Expr} (left : ReadsBack l) (op : BinaryOp) (right : ReadsBack r) :
    ReadsBack (.binary l op r) := by
  have le := op.level_le
  have operand := right.enclosed (show op.rightLevel ≤ 7 by simp only [BinaryOp.rightLevel]; omega)
  cases comparison : op.isComparison with
  | true =>
    have level := BinaryOp.level_of_isComparison comparison
    have first := left.enclosed (show op.leftLevel ≤ 7 by simp only [BinaryOp.leftLevel, comparison, if_true]; omega)
    refine .ofOwn ?_ (by simp [Chains, Expr.level, level])
    simp only [Expr.level, Expr.tokens, Expr.nesting, Expr.chainLength, BinaryOp.leftLevel, BinaryOp.rightLevel,
      comparison, if_true, level, Nat.zero_add] at first operand ⊢
    exact first.comparison level operand
  | false =>
    have chains : Chains op.level := by cases op <;> simp_all [Chains, BinaryOp.level, BinaryOp.isComparison]
    have first := left.enclosedChain chains
    have whole := first.snoc op rfl operand
    have read : ReadsOn (Expr.binary l op r).level (Expr.binary l op r).tokens (Expr.binary l op r).nesting
        (Expr.binary l op r).chainLength (.binary l op r) := by
      simpa only [Expr.level, Expr.tokens, Expr.nesting, Expr.chainLength, BinaryOp.leftLevel, comparison,
        Bool.false_eq_true, if_false] using whole
    exact ⟨read.close, fun _ => read⟩

theorem readsBack_of_printable {e : Expr} (h : e.Printable) : ReadsBack e := by
  induction h with
  | @long n _ =>
    by_cases negative : n < 0
    · have read := (Reads.integer (-n)).signed_of_primary.minus
      simp only [negated, Int64.neg_neg] at read
      refine .ofOwn ?_ (by simp [Chains, Expr.level, negative])
      simpa only [Expr.tokens, Token.ofLiteral, Expr.nesting, Expr.level, if_pos negative] using read
    · refine .ofOwn ?_ (by simp [Chains, Expr.level, negative])
      simpa only [Expr.tokens, Token.ofLiteral, Expr.nesting, Expr.level, if_neg negative] using Reads.integer n
  | double x => exact .ofOwn (.float x) (by simp [Chains, Expr.level])
  | str s => exact .ofOwn (.string s) (by simp [Chains, Expr.level])
  | @placeholder n _ => exact readsBack_variable _ _ (Token.ofVariable_placeholder n) (.placeholder n)
  | path nonempty names => exact readsBack_variable _ _ (Token.ofVariable_path nonempty names) (.path _)
  | call f _ ih =>
    refine .ofOwn (.call f fun e he => ?_) (by simp [Chains, Expr.level])
    exact (ih e he).own.mono (Nat.zero_le _) e.level_le
  | binary op _ _ left right => exact readsBack_binary left op right
  | not _ operand => exact .ofOwn (operand.enclosed (by decide)).not (by simp [Chains, Expr.level])
  | neg _ plain operand =>
    have read := (operand.enclosed (by decide : 6 ≤ 7)).minus
    rw [negated_of_not_number plain] at read
    exact .ofOwn read (by simp [Chains, Expr.level])

end Parse

/-- The tokens of a printable tree are the tree or one level of nesting too many. -/
theorem Expr.ofTokens_eq {e : Expr} (h : e.Printable) :
    ofTokens (e.tokens ++ [.endOfInput]) = if e.nesting ≤ maxDepth then .ok e else .error Parse.tooDeep := by
  have read := ((Parse.readsBack_of_printable h).own.mono (Nat.zero_le _) e.level_le).run maxDepth 0 [.endOfInput]
    (Nat.zero_le _) (Nat.le_refl _) .ending
  simp only [Parse.atLevel, Nat.zero_add] at read
  rw [ofTokens, StateT.run'_eq]
  simp only [Parse.whole, StateT.run_bind, read]
  split <;> rfl

/-- Parsing the tokens of a printable tree gives that tree or refuses the nesting, which takes more than 256
tokens. -/
theorem Expr.ofTokens_tokens {e : Expr} (h : e.Printable) :
    (ofTokens (e.tokens ++ [.endOfInput]) = .ok e ∨
      ofTokens (e.tokens ++ [.endOfInput]) = .error (.parse (.nestedTooDeeply maxDepth))) ∧
    (e.tokens.length ≤ 256 → ofTokens (e.tokens ++ [.endOfInput]) = .ok e) := by
  have read := ofTokens_eq h
  constructor
  · by_cases fits : e.nesting ≤ maxDepth
    · exact .inl (by rw [read, if_pos fits])
    · exact .inr (by rw [read, if_neg fits]; rfl)
  · intro short
    have le := nesting_le e
    have fits : e.nesting ≤ maxDepth := by
      simp only [maxDepth]
      omega
    rw [read, if_pos fits]

/-- `(a - (b.c - 2)) * -3 >= ?12 AND NOT f(NOT x, 'it')` -/
def mixedOperators : Expr :=
  .binary
    (.binary
      (.binary (.binary (.variable "a") .sub (.binary (.variable "b.c") .sub (.literal (.long 2)))) .mul
        (.literal (.long (-3))))
      .ge (.variable "?12"))
    .and (.unary .not (.call "f" [.unary .not (.variable "x"), .literal (.str "it")]))

theorem ofTokens_tokens_mixedOperators :
    mixedOperators.Printable ∧
    mixedOperators.tokens = [.leftParen, .identifier "a", .minus, .leftParen, .identifier "b", .dot, .identifier "c",
      .minus, .integer 2, .rightParen, .rightParen, .asterisk, .minus, .integer 3, .ge, .placeholder 12, .and, .not,
      .identifier "f", .leftParen, .not, .identifier "x", .comma, .string "it", .rightParen] ∧
    Expr.ofTokens (mixedOperators.tokens ++ [.endOfInput]) = .ok mixedOperators := by
  have path : (Expr.variable "b.c").Printable := by
    have names : ∀ part ∈ ["b", "c"], Token.isName part = true := by decide
    exact .path (by simp) names
  have argument : (Expr.variable "?12").Printable := .placeholder (n := 12) (by decide)
  have printable : mixedOperators.Printable := by
    refine .binary _ (.binary _ (.binary _ (.binary _ (.name ?_) (.binary _ path (.long ?_))) (.long ?_)) argument)
      (.not (.call "f" fun e he => ?_))
    · decide
    · decide
    · decide
    · simp only [List.mem_cons, List.not_mem_nil, or_false] at he
      rcases he with rfl | rfl
      · exact .not (.name (by decide))
      · exact .str "it"
  have short : mixedOperators.tokens.length ≤ 256 := by decide +kernel
  exact ⟨printable, by decide +kernel, (Expr.ofTokens_tokens printable).2 short⟩

end FragmentEngine
