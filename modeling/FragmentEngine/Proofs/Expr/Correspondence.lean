import FragmentEngine.Proofs.Expr.Parsing
/-!
# Corresponding parsers

The parser is written for every monad with a cursor and errors. A relation between parsers of two such monads, which may
depend on the nesting at which they start, holds between the two readings of every level if it is kept by the few ways
in which parsers are put together.
-/

namespace FragmentEngine.Parse

variable {m m' : Type → Type}

/-- The parsers further in correspond from every nesting that is at least `d`. -/
structure Inner.Corresponds (R : Nat → ∀ {α : Type}, m α → m' α → Prop) (d : Nat) (inner : Inner m)
    (inner' : Inner m') : Prop where
  expression : ∀ e, d ≤ e → e < maxDepth → R (e + 1) inner.expression inner'.expression
  negation : ∀ e, d ≤ e → e < maxDepth → R (e + 1) inner.negation inner'.negation
  signed : ∀ e, d ≤ e → e < maxDepth → R (e + 1) inner.signed inner'.signed

theorem Inner.Corresponds.mono {R : Nat → ∀ {α : Type}, m α → m' α → Prop} {d e : Nat} {inner : Inner m}
    {inner' : Inner m'} (h : inner.Corresponds R d inner') (le : d ≤ e) : inner.Corresponds R e inner' :=
  ⟨fun k up => h.expression k (Nat.le_trans le up), fun k up => h.negation k (Nat.le_trans le up),
    fun k up => h.signed k (Nat.le_trans le up)⟩

variable [Monad m] [MonadStateOf Cursor m] [MonadExceptOf Error m] [Monad m'] [MonadStateOf Cursor m']
  [MonadExceptOf Error m']

/-- `R d p q` relates parsers that start with nesting `d`. The operands of a chain start with any higher nesting. -/
structure Correspondence (R : Nat → ∀ {α : Type}, m α → m' α → Prop) : Prop where
  pure : ∀ d {α : Type} (x : α), R d (pure x) (pure x)
  bind : ∀ {d} {α β : Type} {p : m α} {q : m' α} {f : α → m β} {g : α → m' β}, R d p q → (∀ x, R d (f x) (g x)) →
    R d (p >>= f) (q >>= g)
  current : ∀ d, R d current current
  advance : ∀ d, R d advance advance
  refused : ∀ d {α : Type} (e : ParseError), R d (throw (.parse e) : m α) (throw (.parse e) : m' α)
  nested : ∀ {d} {α : Type} {p : m α} {q : m' α}, (d < maxDepth → R (d + 1) p q) → R d (nested p) (nested q)
  chain : ∀ {d op?} {p : m Expr} {q : m' Expr}, d ≤ maxDepth → (∀ e, d ≤ e → e ≤ maxDepth → R e p q) →
    R d (chain op? p) (chain op? q)
  path : ∀ d name, R d (path name) (path name)
  argumentList : ∀ {d} {inner : Inner m} {inner' : Inner m'}, R d (Parse.nested inner.expression)
    (Parse.nested inner'.expression) → R d (argumentList inner) (argumentList inner')

namespace Correspondence

variable {R : Nat → ∀ {α : Type}, m α → m' α → Prop} {d : Nat} {inner : Inner m} {inner' : Inner m'}

theorem refuse (h : Correspondence R) {α : Type} (expected : Expected) :
    R d (refuse expected : m α) (refuse expected : m' α) :=
  h.bind (h.current d) fun _ => h.refused d _

theorem expect (h : Correspondence R) (t : Token) : R d (expect t) (expect t) := by
  refine h.bind (h.current d) fun _ => ?_
  split
  · exact h.advance d
  · exact h.refuse _

theorem nested_expression (h : Correspondence R) (given : inner.Corresponds R d inner') :
    R d (Parse.nested inner.expression) (Parse.nested inner'.expression) :=
  h.nested fun room => given.expression d (Nat.le_refl d) room

theorem named (h : Correspondence R) (given : inner.Corresponds R d inner') (name : String) :
    R d (named inner name) (named inner' name) := by
  refine h.bind (h.current d) fun _ => ?_
  split
  · refine h.bind (h.advance d) fun _ => h.bind (h.current d) fun _ => ?_
    have closed (args : List Expr) : R d (Parse.expect .rightParen >>= fun _ => Pure.pure (Expr.call name args))
        (Parse.expect .rightParen >>= fun _ => Pure.pure (Expr.call name args)) :=
      h.bind (h.expect _) fun _ => h.pure d _
    split
    · exact h.bind (h.pure d _) closed
    · exact h.bind (h.argumentList (h.nested_expression given)) closed
  · exact h.bind (h.path d name) fun _ => h.pure d _

theorem primary (h : Correspondence R) (given : inner.Corresponds R d inner') :
    R d (primary inner) (primary inner') := by
  refine h.bind (h.current d) fun t => ?_
  cases t with
  | integer _ | float _ | string _ | placeholder _ => exact h.bind (h.advance d) fun _ => h.pure d _
  | leftParen =>
    exact h.bind (h.advance d) fun _ => h.bind (h.nested_expression given) fun _ => h.bind (h.expect _) fun _ =>
      h.pure d _
  | identifier name => exact h.bind (h.advance d) fun _ => h.named given name
  | _ => exact h.refuse _

theorem signed (h : Correspondence R) (given : inner.Corresponds R d inner') : R d (signed inner) (signed inner') := by
  have nested : R d (Parse.nested inner.signed) (Parse.nested inner'.signed) :=
    h.nested fun room => given.signed d (Nat.le_refl d) room
  refine h.bind (h.current d) fun t => ?_
  split
  · exact h.bind (h.advance d) fun _ => h.bind nested fun _ => h.pure d _
  · exact h.bind (h.advance d) fun _ => nested
  · exact h.primary given

theorem multiplicative (h : Correspondence R) (low : d ≤ maxDepth) (given : inner.Corresponds R d inner') :
    R d (multiplicative inner) (multiplicative inner') :=
  h.chain low fun _ up _ => h.signed (given.mono up)

theorem additive (h : Correspondence R) (low : d ≤ maxDepth) (given : inner.Corresponds R d inner') :
    R d (additive inner) (additive inner') :=
  h.chain low fun _ up low => h.multiplicative low (given.mono up)

theorem comparison (h : Correspondence R) (low : d ≤ maxDepth) (given : inner.Corresponds R d inner') :
    R d (comparison inner) (comparison inner') := by
  refine h.bind (h.additive low given) fun left => h.bind (h.current d) fun t => ?_
  split
  · exact h.pure d _
  · exact h.bind (h.advance d) fun _ => h.bind (h.additive low given) fun _ => h.pure d _

theorem negation (h : Correspondence R) (low : d ≤ maxDepth) (given : inner.Corresponds R d inner') :
    R d (negation inner) (negation inner') := by
  refine h.bind (h.current d) fun t => ?_
  split
  · exact h.bind (h.advance d) fun _ =>
      h.bind (h.nested fun room => given.negation d (Nat.le_refl d) room) fun _ => h.pure d _
  · exact h.comparison low given

theorem conjunction (h : Correspondence R) (low : d ≤ maxDepth) (given : inner.Corresponds R d inner') :
    R d (conjunction inner) (conjunction inner') :=
  h.chain low fun _ up low => h.negation low (given.mono up)

theorem disjunction (h : Correspondence R) (low : d ≤ maxDepth) (given : inner.Corresponds R d inner') :
    R d (disjunction inner) (disjunction inner') :=
  h.chain low fun _ up low => h.conjunction low (given.mono up)

/-- Corresponding parsers further in make corresponding parsers of every level. -/
theorem atLevel (h : Correspondence R) (low : d ≤ maxDepth) (given : inner.Corresponds R d inner') (l : Nat) :
    R d (atLevel l inner) (atLevel l inner') := by
  unfold Parse.atLevel
  split
  exacts [h.disjunction low given, h.conjunction low given, h.negation low given, h.comparison low given,
    h.additive low given, h.multiplicative low given, h.signed given, h.primary given]

/-- The parsers that reach down to the limit correspond, also if one of the two could go on behind it. -/
theorem levels (h : Correspondence R) {n n' : Nat} (enough : maxDepth ≤ n + d) (enough' : maxDepth ≤ n' + d) :
    (levels n : Inner m).Corresponds R d (levels n' : Inner m') := by
  induction n generalizing n' d with
  | zero => exact ⟨fun _ _ _ => by omega, fun _ _ _ => by omega, fun _ _ _ => by omega⟩
  | succ n ih =>
    cases n' with
    | zero => exact ⟨fun _ _ _ => by omega, fun _ _ _ => by omega, fun _ _ _ => by omega⟩
    | succ n' =>
      have given (e : Nat) (up : d ≤ e) :
          (Parse.levels n : Inner m).Corresponds R (e + 1) (Parse.levels n' : Inner m') := ih (by omega) (by omega)
      exact ⟨fun e up room => h.disjunction room (given e up), fun e up room => h.negation room (given e up),
        fun e up room => h.signed (given e up)⟩

end Correspondence

end FragmentEngine.Parse
