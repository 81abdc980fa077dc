import FragmentEngine.Proofs.Expr.Parsing
/-!
# Invariants of parsed trees

A property of trees, which may depend on the level and the nesting at which they are read, holds of every tree
that the parser gives if each way to build a tree preserves it. Literals and names come from the tokens, so that it need
not hold of others.
-/

namespace FragmentEngine.Parse

/-- `P l d e` is to hold of the trees `e` read from the tokens `ts` at level `l` with nesting `d`, and `I l d k e` of the
part of a chain up to its `k`th operator. -/
structure Preserved (ts : List Token) (P : Nat → Nat → Expr → Prop) (I : Nat → Nat → Nat → Expr → Prop) : Prop where
  integer : ∀ d n, .integer n ∈ ts → P 6 d (.literal (.long n))
  float : ∀ d x, .float x ∈ ts → P 6 d (.literal (.double x))
  string : ∀ d s, .string s ∈ ts → P 6 d (.literal (.str s))
  placeholder : ∀ d n, .placeholder n ∈ ts → P 6 d (.variable s!"?{n}")
  path : ∀ d parts, parts ≠ [] → (∀ part ∈ parts, .identifier part ∈ ts) → P 6 d (.variable (".".intercalate parts))
  call : ∀ d f args, (∀ e ∈ args, d < maxDepth ∧ P 0 (d + 1) e) → P 6 d (.call f args)
  parens : ∀ d e, d < maxDepth → P 0 (d + 1) e → P 6 d e
  plus : ∀ d e, d < maxDepth → P 6 (d + 1) e → P 6 d e
  minus : ∀ d e, d < maxDepth → P 6 (d + 1) e → P 6 d (negated e)
  single : ∀ d e, P 4 d e → P 3 d e
  comparison : ∀ d op l r, op.isComparison = true → P 4 d l → P 4 d r → P 3 d (.binary l op r)
  plain : ∀ d e, P 3 d e → P 2 d e
  not : ∀ d e, d < maxDepth → P 2 (d + 1) e → P 2 d (.unary .not e)
  first : ∀ l d e, Chains l → P (l + 1) d e → I l d 0 e
  more : ∀ l d k op e r, Chains l → op.isComparison = false → d + k < maxDepth → I l d k e → P (l + 1) (d + k + 1) r →
    I l d (k + 1) (.binary e op r)
  whole : ∀ l d k e, Chains l → d + k ≤ maxDepth → I l d k e → P l d e

/-- The parsers one level further in give trees with the property. -/
structure Inner.Gives (inner : Inner Parse) (ts : List Token) (P : Nat → Nat → Expr → Prop) : Prop where
  expression : ∀ d ≤ maxDepth, Yields ts d inner.expression (P 0 d)
  negation : ∀ d ≤ maxDepth, Yields ts d inner.negation (P 2 d)
  signed : ∀ d ≤ maxDepth, Yields ts d inner.signed (P 6 d)

theorem isComparison_of_opAt {l : Nat} {t : Token} {op : BinaryOp} (chains : Chains l) (h : opAt l t = some op) :
    op.isComparison = false := by
  rcases chains with rfl | rfl | rfl | rfl <;> cases t <;> cases h <;> rfl

theorem isComparison_of_comparisonOp? {t : Token} {op : BinaryOp} (h : comparisonOp? t = some op) :
    op.isComparison = true := by
  cases t <;> cases h <;> rfl

namespace Preserved

variable {ts : List Token} {P : Nat → Nat → Expr → Prop} {I : Nat → Nat → Nat → Expr → Prop} {inner : Inner Parse} {d : Nat}

theorem chain (h : Preserved ts P I) {l : Nat} (chains : Chains l)
    (operands : ∀ d ≤ maxDepth, Yields ts d (atLevel (l + 1) inner) (P (l + 1) d)) (low : d ≤ maxDepth) :
    Yields ts d (atLevel l inner) (P l d) := by
  rw [atLevel_of_chains chains]
  have read : Yields ts d (Parse.chain (opAt l) (atLevel (l + 1) inner)) fun e => ∃ k, d + k ≤ maxDepth ∧ I l d k e := by
    refine .chain low (fun k fits => operands (d + k) fits) (fun e first => h.first l d e chains first) ?_
    intro k t op left right operator room before operand
    exact h.more l d k op left right chains (isComparison_of_opAt chains operator) room before operand
  exact read.mono fun e ⟨k, fits, holds⟩ => h.whole l d k e chains fits holds

theorem nested_expression (given : inner.Gives ts P) :
    Yields ts d (nested inner.expression) fun e => d < maxDepth ∧ P 0 (d + 1) e :=
  .nested fun room => (given.expression (d + 1) room).mono fun _ holds => ⟨room, holds⟩

theorem arguments (given : inner.Gives ts P) (bound : Nat) :
    Yields ts d (Parse.arguments inner bound) fun args => ∀ e ∈ args, d < maxDepth ∧ P 0 (d + 1) e := by
  induction bound with
  | zero => exact .pure fun _ mem => absurd mem List.not_mem_nil
  | succ bound ih =>
    refine .bind (nested_expression given) fun e holds => .bind .current fun _ _ => ?_
    split
    · refine .bind .advance fun _ _ => .bind ih fun others hold => .pure fun e' mem => ?_
      rcases List.mem_cons.1 mem with rfl | mem
      · exact holds
      · exact hold e' mem
    · refine .pure fun e' mem => ?_
      rw [List.mem_singleton.1 mem]
      exact holds

theorem named (h : Preserved ts P I) (given : inner.Gives ts P) {name : String} (mem : .identifier name ∈ ts) :
    Yields ts d (Parse.named inner name) (P 6 d) := by
  refine .bind .current fun _ _ => ?_
  split
  · refine .bind .advance fun _ _ => .bind .current fun _ _ => ?_
    have closed : ∀ args, (∀ e ∈ args, d < maxDepth ∧ P 0 (d + 1) e) →
        Yields ts d (expect .rightParen >>= fun _ => pure (Expr.call name args)) (P 6 d) :=
      fun args hold => .bind (.expect _) fun _ _ => .pure (h.call d name args hold)
    split
    · exact .bind (.pure fun _ mem => absurd mem List.not_mem_nil) closed
    · exact .bind (.bind .get fun _ _ => arguments given _) closed
  · refine .bind (.path name) fun full ⟨parts, whole, names⟩ => .pure ?_
    rw [whole]
    exact h.path d (name :: parts) (List.cons_ne_nil name parts) (List.forall_mem_cons.2 ⟨mem, names⟩)

theorem primary (h : Preserved ts P I) (given : inner.Gives ts P) : Yields ts d (Parse.primary inner) (P 6 d) := by
  refine .bind .current fun t mem => ?_
  cases t with
  | integer n => exact .bind .advance fun _ _ => .pure (h.integer d n (mem nofun))
  | float x => exact .bind .advance fun _ _ => .pure (h.float d x (mem nofun))
  | string s => exact .bind .advance fun _ _ => .pure (h.string d s (mem nofun))
  | placeholder n => exact .bind .advance fun _ _ => .pure (h.placeholder d n (mem nofun))
  | leftParen =>
    exact .bind .advance fun _ _ => .bind (nested_expression given) fun e ⟨room, holds⟩ => .bind (.expect _) fun _ _ =>
      .pure (h.parens d e room holds)
  | identifier name => exact .bind .advance fun _ _ => h.named given (mem nofun)
  | _ => exact .refuse _

theorem signed (h : Preserved ts P I) (given : inner.Gives ts P) : Yields ts d (atLevel 6 inner) (P 6 d) := by
  have nested : Yields ts d (nested inner.signed) fun e => d < maxDepth ∧ P 6 (d + 1) e :=
    .nested fun room => (given.signed (d + 1) room).mono fun _ holds => ⟨room, holds⟩
  refine .bind .current fun t _ => ?_
  split
  · exact .bind .advance fun _ _ => .bind nested fun e ⟨room, holds⟩ => .pure (h.minus d e room holds)
  · exact .bind .advance fun _ _ => nested.mono fun e ⟨room, holds⟩ => h.plus d e room holds
  · exact h.primary given

theorem additive (h : Preserved ts P I) (given : inner.Gives ts P) (low : d ≤ maxDepth) :
    Yields ts d (atLevel 4 inner) (P 4 d) := by
  have multiplicative : ∀ d ≤ maxDepth, Yields ts d (atLevel 5 inner) (P 5 d) := fun d low =>
    h.chain (.inr (.inr (.inr rfl))) (fun _ _ => h.signed given) low
  exact h.chain (.inr (.inr (.inl rfl))) multiplicative low

theorem comparison_level (h : Preserved ts P I) (given : inner.Gives ts P) (low : d ≤ maxDepth) :
    Yields ts d (atLevel 3 inner) (P 3 d) := by
  refine .bind (h.additive given low) fun l left => .bind .current fun t _ => ?_
  split
  · exact .pure (h.single d l left)
  next op operator =>
    refine .bind .advance fun _ _ => .bind (h.additive given low) fun r right => .pure ?_
    exact h.comparison d op l r (isComparison_of_comparisonOp? operator) left right

theorem negation (h : Preserved ts P I) (given : inner.Gives ts P) (low : d ≤ maxDepth) :
    Yields ts d (atLevel 2 inner) (P 2 d) := by
  have nested : Yields ts d (nested inner.negation) fun e => d < maxDepth ∧ P 2 (d + 1) e :=
    .nested fun room => (given.negation (d + 1) room).mono fun _ holds => ⟨room, holds⟩
  refine .bind .current fun t _ => ?_
  split
  · exact .bind .advance fun _ _ => .bind nested fun e ⟨room, holds⟩ => .pure (h.not d e room holds)
  · exact (h.comparison_level given low).mono fun e => h.plain d e

theorem disjunction (h : Preserved ts P I) (given : inner.Gives ts P) (low : d ≤ maxDepth) :
    Yields ts d (atLevel 0 inner) (P 0 d) := by
  have conjunction : ∀ d ≤ maxDepth, Yields ts d (atLevel 1 inner) (P 1 d) := fun d low =>
    h.chain (.inr (.inl rfl)) (fun _ low => h.negation given low) low
  exact h.chain (.inl rfl) conjunction low

theorem gives_levels (h : Preserved ts P I) (n : Nat) : (levels n).Gives ts P := by
  induction n with
  | zero => exact ⟨fun _ _ => .throw _, fun _ _ => .throw _, fun _ _ => .throw _⟩
  | succ n ih => exact ⟨fun _ low => h.disjunction ih low, fun _ low => h.negation ih low, fun _ _ => h.signed ih⟩

/-- Every parsed tree has the property. -/
theorem ofTokens (h : Preserved ts P I) {e : Expr} (parsed : Expr.ofTokens ts = .ok e) : P 0 0 e := by
  rw [Expr.ofTokens, StateT.run'_eq] at parsed
  obtain ⟨r, run, rfl⟩ := Outcome.map_eq_ok.1 parsed
  have whole : Yields ts 0 Parse.whole (P 0 0) := by
    refine .bind (h.disjunction (h.gives_levels maxDepth) (Nat.zero_le _)) fun e holds => .bind .current fun _ _ => ?_
    split
    · exact .pure holds
    · exact .refuse _
  exact (whole ⟨ts, 0⟩ r rfl (List.Subset.refl ts) run).2.2

end Preserved

end FragmentEngine.Parse
