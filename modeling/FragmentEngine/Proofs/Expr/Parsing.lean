import FragmentEngine.Expr.Parser
import FragmentEngine.Proofs.Outcome
/-!
# Steps of the parser

What each piece of the parser does to the tokens to come and to the nesting.
-/

namespace FragmentEngine.Parse

open Outcome

variable {α β : Type}

/-- The refusal of one level too many. -/
def tooDeep : Error := .parse (.nestedTooDeeply maxDepth)

theorem run_current (c : Cursor) : (current : Parse Token).run c = .ok (c.rest.headD .endOfInput, c) := rfl

theorem run_advance (c : Cursor) : (advance : Parse Unit).run c = .ok ((), ⟨c.rest.tail, c.depth⟩) := rfl

theorem run_pure (x : α) (c : Cursor) : (pure x : Parse α).run c = .ok (x, c) := rfl

theorem run_get (c : Cursor) : (get : Parse Cursor).run c = .ok (c, c) := rfl

theorem run_modify (f : Cursor → Cursor) (c : Cursor) : (modify f : Parse Unit).run c = .ok ((), f c) := rfl

theorem run_expect (t : Token) (rest : List Token) (d : Nat) :
    (expect t : Parse Unit).run ⟨t :: rest, d⟩ = .ok ((), ⟨rest, d⟩) := by
  simp only [expect, StateT.run_bind, run_current, ok_bind, List.headD_cons, if_true]
  rfl

theorem run_descend (c : Cursor) :
    (descend : Parse Unit).run c = if c.depth < maxDepth then .ok ((), ⟨c.rest, c.depth + 1⟩) else .error tooDeep := by
  simp only [descend, StateT.run_bind, run_get, ok_bind]
  split <;> rfl

theorem run_ascend {c : Cursor} (inside : 0 < c.depth) :
    (ascend : Parse Unit).run c = .ok ((), ⟨c.rest, c.depth - 1⟩) := by
  simp only [ascend, StateT.run_bind, run_get, ok_bind, if_neg (Nat.ne_of_gt inside)]
  rfl

theorem run_nested (p : Parse α) (c : Cursor) :
    (nested p).run c = if c.depth < maxDepth then p.run ⟨c.rest, c.depth + 1⟩ >>= fun r =>
      (ascend : Parse Unit).run r.2 >>= fun r' => .ok (r.1, r'.2) else .error tooDeep := by
  simp only [nested, StateT.run_bind, run_descend]
  split <;> rfl

/-! ## Signs and primary expressions -/

theorem run_signed_minus (inner : Inner Parse) (rest : List Token) (d : Nat) :
    (signed inner).run ⟨.minus :: rest, d⟩ =
      (nested inner.signed).run ⟨rest, d⟩ >>= fun r => .ok (negated r.1, r.2) := rfl

theorem run_primary_leftParen (inner : Inner Parse) (rest : List Token) (d : Nat) :
    (primary inner).run ⟨.leftParen :: rest, d⟩ =
      (do let e ← nested inner.expression; expect .rightParen; return e : Parse Expr).run ⟨rest, d⟩ := rfl

theorem run_primary_identifier (inner : Inner Parse) (name : String) (rest : List Token) (d : Nat) :
    (primary inner).run ⟨.identifier name :: rest, d⟩ = (named inner name).run ⟨rest, d⟩ := rfl

/-- A dotted name ends at a token that is no dot. -/
theorem dotted_end {ts : List Token} (h : ts.headD .endOfInput ≠ .dot) (name : String) :
    dotted name ts = .ok (name, ts) := by
  unfold dotted
  split
  · exact absurd rfl h
  · exact absurd rfl h
  · rfl

/-- What is left behind a dotted name. -/
theorem dotted_onward {name : String} {ts : List Token} {r : String × List Token} (read : dotted name ts = .ok r) :
    r.2 <:+ ts := by
  fun_induction dotted name ts with
  | case1 name part rest ih => exact (ih read).trans ((List.suffix_cons _ rest).trans (List.suffix_cons _ _))
  | case2 => cases read
  | case3 name rest =>
    cases read
    exact List.suffix_rfl

/-- A dotted name is put together of the name before the dots and of those behind them. -/
theorem dotted_parts {name : String} {ts : List Token} {r : String × List Token} (read : dotted name ts = .ok r) :
    ∃ parts, r.1 = ".".intercalate (name :: parts) ∧ ∀ part ∈ parts, .identifier part ∈ ts := by
  fun_induction dotted name ts with
  | case1 name part rest ih =>
    obtain ⟨parts, full, names⟩ := ih read
    refine ⟨part :: parts, ?_, ?_⟩
    · rw [full]
      rfl
    · intro part' mem
      rcases List.mem_cons.1 mem with rfl | mem
      · exact List.mem_cons_of_mem _ List.mem_cons_self
      · exact List.mem_cons_of_mem _ (List.mem_cons_of_mem _ (names part' mem))
  | case2 => cases read
  | case3 name rest =>
    cases read
    exact ⟨[], by simp, nofun⟩

theorem run_arguments_succ (inner : Inner Parse) (bound : Nat) (c : Cursor) : (arguments inner (bound + 1)).run c =
    (nested inner.expression).run c >>= fun r =>
      if r.2.rest.headD .endOfInput = .comma then
        (arguments inner bound).run ⟨r.2.rest.tail, r.2.depth⟩ >>= fun s => .ok (r.1 :: s.1, s.2)
      else .ok ([r.1], r.2) := by
  simp only [arguments, StateT.run_bind]
  refine congrArg _ (funext fun r => ?_)
  simp only [run_current, ok_bind]
  split <;> rfl

theorem run_argumentList (inner : Inner Parse) (c : Cursor) :
    (argumentList inner).run c = (arguments inner (c.rest.length + 1)).run c := rfl

/-- The call of a name, if it has arguments. -/
theorem run_named_arguments (inner : Inner Parse) (name : String) {rest : List Token}
    (opens : rest.headD .endOfInput ≠ .rightParen) (d : Nat) : (named inner name).run ⟨.leftParen :: rest, d⟩ =
      (argumentList inner).run ⟨rest, d⟩ >>= fun r =>
        (expect .rightParen : Parse Unit).run r.2 >>= fun s => .ok (.call name r.1, s.2) := by
  simp only [named, StateT.run_bind, run_current, ok_bind, List.headD_cons, run_advance, List.tail_cons, if_true,
    if_neg opens]
  rfl

theorem run_path (name : String) (c : Cursor) :
    (path name : Parse String).run c = dotted name c.rest >>= fun r => .ok (r.1, ⟨r.2, c.depth⟩) := by
  simp only [path, StateT.run_bind, run_get, ok_bind]
  cases dotted name c.rest <;> rfl

/-! ## Chains -/

section Chain

variable {op? : Token → Option BinaryOp} {operand : Parse Expr}

theorem run_chain (c : Cursor) :
    (chain op? operand).run c = operand.run c >>= fun first =>
      (chainTail op? operand (maxDepth + 1) first.1).run first.2 >>= fun r => .ok (r.1, ⟨r.2.rest, first.2.depth⟩) := by
  simp only [chain, StateT.run_bind, run_get, ok_bind, run_modify]
  rfl

/-- A chain ends at a token that is none of its operators. -/
theorem run_chainTail_end {c : Cursor} (h : op? (c.rest.headD .endOfInput) = none) (bound : Nat) (left : Expr) :
    (chainTail op? operand bound left).run c = .ok (left, c) := by
  cases bound with
  | zero => rfl
  | succ bound =>
    simp only [chainTail, StateT.run_bind, run_current, ok_bind, h]
    rfl

theorem run_chainTail_op {c : Cursor} {op : BinaryOp} (h : op? (c.rest.headD .endOfInput) = some op) (bound : Nat)
    (left : Expr) :
    (chainTail op? operand (bound + 1) left).run c = if c.depth < maxDepth then
      operand.run ⟨c.rest.tail, c.depth + 1⟩ >>= fun r => (chainTail op? operand bound (.binary left op r.1)).run r.2
      else .error tooDeep := by
  simp only [chainTail, StateT.run_bind, run_current, ok_bind, h, run_advance, run_descend]
  split <;> rfl

end Chain

/-! ## Levels as parsers -/

/-- The parser of a level. -/
def atLevel {m : Type → Type} [Monad m] [MonadStateOf Cursor m] [MonadExceptOf Error m] : Nat → Inner m → m Expr
  | 0 => disjunction
  | 1 => conjunction
  | 2 => negation
  | 3 => comparison
  | 4 => additive
  | 5 => multiplicative
  | 6 => signed
  | _ => primary

/-- The operator that a token stands for at a level. -/
def opAt : Nat → Token → Option BinaryOp
  | 0 => orOp?
  | 1 => andOp?
  | 3 => comparisonOp?
  | 4 => additiveOp?
  | 5 => multiplicativeOp?
  | _ => fun _ => none

/-- The levels of operators that chain. -/
def Chains (l : Nat) : Prop := l = 0 ∨ l = 1 ∨ l = 4 ∨ l = 5

theorem atLevel_of_chains {l : Nat} (h : Chains l) (inner : Inner Parse) :
    atLevel l inner = chain (opAt l) (atLevel (l + 1) inner) := by
  rcases h with rfl | rfl | rfl | rfl <;> rfl

/-! ## Parsers that succeed -/

/-- A parser that succeeds at nesting `d` with tokens among `ts` to come ends at that nesting with tokens among `ts` to
come, and its result satisfies `P`. -/
def Yields (ts : List Token) (d : Nat) (p : Parse α) (P : α → Prop) : Prop :=
  ∀ c r, c.depth = d → c.rest ⊆ ts → p.run c = .ok r → r.2.depth = d ∧ r.2.rest ⊆ ts ∧ P r.1

namespace Yields

variable {ts : List Token} {d : Nat} {p : Parse α} {P : α → Prop} {f : α → Parse β} {Q : β → Prop}

theorem mono {P' : α → Prop} (h : Yields ts d p P) (imp : ∀ x, P x → P' x) : Yields ts d p P' := by
  intro c r at_d among run
  obtain ⟨depth, rest, holds⟩ := h c r at_d among run
  exact ⟨depth, rest, imp r.1 holds⟩

theorem pure {x : α} (h : P x) : Yields ts d (pure x : Parse α) P := by
  intro c r at_d among run
  cases run
  exact ⟨at_d, among, h⟩

theorem bind (h : Yields ts d p P) (next : ∀ x, P x → Yields ts d (f x) Q) : Yields ts d (p >>= f) Q := by
  intro c r at_d among run
  rw [StateT.run_bind] at run
  obtain ⟨r', first, second⟩ := bind_eq_ok.1 run
  obtain ⟨depth, rest, holds⟩ := h c r' at_d among first
  exact next r'.1 holds r'.2 r depth rest second

theorem throw (e : Error) : Yields ts d (throw e : Parse α) P := by
  intro c r _ _ run
  cases run

theorem ofExcept (x : Except Error α) : Yields ts d (MonadExcept.ofExcept x : Parse α) fun a => x = .ok a := by
  intro c r at_d among run
  cases x <;> cases run
  exact ⟨at_d, among, rfl⟩

theorem get : Yields ts d (get : Parse Cursor) fun c => c.depth = d ∧ c.rest ⊆ ts := by
  intro c r at_d among run
  cases run
  exact ⟨at_d, among, at_d, among⟩

theorem set {c : Cursor} (at_d : c.depth = d) (among : c.rest ⊆ ts) :
    Yields ts d (set c : Parse Unit) fun _ => True := by
  intro c' r _ _ run
  cases run
  exact ⟨at_d, among, trivial⟩

/-- The token looked at is to come, unless it is the end of the input. -/
theorem current : Yields ts d (current : Parse Token) fun t => t ≠ .endOfInput → t ∈ ts := by
  intro c r at_d among run
  cases run
  refine ⟨at_d, among, fun more => ?_⟩
  obtain ⟨rest, depth⟩ := c
  cases rest with
  | nil => exact absurd rfl more
  | cons t rest => exact among List.mem_cons_self

theorem advance : Yields ts d (advance : Parse Unit) fun _ => True := by
  intro c r at_d among run
  cases run
  exact ⟨at_d, fun t mem => among (List.mem_of_mem_tail mem), trivial⟩

theorem refuse (expected : Expected) : Yields ts d (refuse expected : Parse α) P :=
  bind current fun _ _ => throw _

theorem expect (t : Token) : Yields ts d (expect t : Parse Unit) fun _ => True := by
  refine bind current fun _ _ => ?_
  split
  · exact advance
  · exact refuse _

/-- The parts of a name are among the tokens. -/
theorem path (name : String) : Yields ts d (path name : Parse String) fun full =>
    ∃ parts, full = ".".intercalate (name :: parts) ∧ ∀ part ∈ parts, .identifier part ∈ ts := by
  refine bind get fun c ⟨at_d, among⟩ => bind (ofExcept _) fun r read => ?_
  obtain ⟨parts, full, names⟩ := dotted_parts read
  have onward := List.Subset.trans (dotted_onward read).subset among
  exact bind (set at_d onward) fun _ _ => pure ⟨parts, full, fun part mem => among (names part mem)⟩

/-- A refused nesting yields nothing. -/
theorem nested (h : d < maxDepth → Yields ts (d + 1) p P) : Yields ts d (nested p) P := by
  intro c r at_d among run
  rw [run_nested, at_d] at run
  split at run
  next room =>
    obtain ⟨r', inside, run⟩ := bind_eq_ok.1 run
    obtain ⟨depth, rest, holds⟩ := h room ⟨c.rest, d + 1⟩ r' rfl among inside
    rw [run_ascend (by omega)] at run
    cases run
    exact ⟨by simp only [depth, Nat.add_sub_cancel], rest, holds⟩
  next => cases run

end Yields

section YieldsChain

variable {op? : Token → Option BinaryOp} {operand : Parse Expr} {ts : List Token} {d : Nat}
  {P I : Nat → Expr → Prop}

/-- Of the tree read up to the `k`th operator of a chain `I k` holds, if it holds of the first operand and every
operator preserves it. -/
theorem Yields.chainTail (operands : ∀ k, d + k ≤ maxDepth → Yields ts (d + k) operand (P k))
    (step : ∀ k t op l r, op? t = some op → d + k < maxDepth → I k l → P (k + 1) r → I (k + 1) (.binary l op r)) :
    ∀ bound k left c r, c.depth = d + k → d + k ≤ maxDepth → c.rest ⊆ ts → I k left →
      (chainTail op? operand bound left).run c = .ok r → r.2.rest ⊆ ts ∧ ∃ k, d + k ≤ maxDepth ∧ I k r.1 := by
  intro bound
  induction bound with
  | zero =>
    intro k left c r _ fits among holds run
    cases run
    exact ⟨among, k, fits, holds⟩
  | succ bound ih =>
    intro k left c r at_k fits among holds run
    cases head : op? (c.rest.headD .endOfInput) with
    | none =>
      rw [run_chainTail_end head] at run
      cases run
      exact ⟨among, k, fits, holds⟩
    | some op =>
      rw [run_chainTail_op head, at_k] at run
      split at run
      next room =>
        obtain ⟨right, read, run⟩ := bind_eq_ok.1 run
        have behind : c.rest.tail ⊆ ts := fun t mem => among (List.mem_of_mem_tail mem)
        obtain ⟨at_next, among, holds'⟩ := operands (k + 1) room _ right rfl behind read
        exact ih (k + 1) _ _ r at_next room among (step k _ op left right.1 head room holds holds') run
      next => cases run

theorem Yields.chain (low : d ≤ maxDepth) (operands : ∀ k, d + k ≤ maxDepth → Yields ts (d + k) operand (P k))
    (first : ∀ e, P 0 e → I 0 e)
    (step : ∀ k t op l r, op? t = some op → d + k < maxDepth → I k l → P (k + 1) r → I (k + 1) (.binary l op r)) :
    Yields ts d (chain op? operand) fun e => ∃ k, d + k ≤ maxDepth ∧ I k e := by
  intro c r at_d among run
  rw [run_chain] at run
  obtain ⟨left, read, run⟩ := bind_eq_ok.1 run
  obtain ⟨whole, tail, run⟩ := bind_eq_ok.1 run
  obtain ⟨at_left, among, holds⟩ := operands 0 low c left at_d among read
  obtain ⟨among, reached⟩ := chainTail operands step _ 0 left.1 _ whole at_left low among (first left.1 holds) tail
  cases run
  exact ⟨at_left, among, reached⟩

end YieldsChain

end FragmentEngine.Parse
