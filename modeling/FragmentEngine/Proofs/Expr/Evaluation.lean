import FragmentEngine.Expr.Evaluator
import FragmentEngine.Proofs.Outcome
/-!
# Successful evaluations

What an evaluation that succeeds has done, one construct at a time.
-/

namespace FragmentEngine

namespace Eval

variable {α β : Type} {s s' : Sites} {y : β}

/-- An evaluation succeeds, with the accumulators before and after it. -/
def Ends (p : Eval α) (s : Sites) (x : α) (s' : Sites) : Prop := p.run s = (.ok x, s')

theorem run_bind (p : Eval α) (f : α → Eval β) (s : Sites) :
    (p >>= f).run s = match p.run s with
      | (.ok x, s₁) => (f x).run s₁
      | (.error e, s₁) => (.error e, s₁) := by
  rw [ExceptT.run_bind]
  show StateT.bind _ _ s = _
  unfold StateT.bind
  rcases p.run s with ⟨e | x, s₁⟩ <;> rfl

theorem ends_bind {p : Eval α} {f : α → Eval β} :
    Ends (p >>= f) s y s' ↔ ∃ x s₁, Ends p s x s₁ ∧ Ends (f x) s₁ y s' := by
  unfold Ends
  rw [run_bind]
  constructor
  · intro h
    rcases first : p.run s with ⟨e | x, s₁⟩
    · rw [first] at h
      cases h
    · rw [first] at h
      exact ⟨x, s₁, rfl, h⟩
  · rintro ⟨x, s₁, first, h⟩
    rw [first]
    exact h

theorem ends_pure {x : β} : Ends (pure x : Eval β) s y s' ↔ y = x ∧ s' = s := by
  constructor
  · intro h
    cases h
    exact ⟨rfl, rfl⟩
  · rintro ⟨rfl, rfl⟩
    rfl

theorem not_ends_throw (e : Error) : ¬Ends (throw e : Eval β) s y s' := by
  intro h
  cases h

theorem ends_lift_bind {x : Except Error α} {f : α → Eval β} :
    Ends (liftM x >>= f) s y s' ↔ ∃ a, x = .ok a ∧ Ends (f a) s y s' := by
  unfold Ends
  rw [run_bind]
  cases x with
  | error e =>
    constructor
    · intro h
      cases h
    · rintro ⟨a, eq, _⟩
      cases eq
  | ok a =>
    constructor
    · intro h
      exact ⟨a, rfl, h⟩
    · rintro ⟨_, eq, h⟩
      cases eq
      exact h

theorem ends_get_bind {f : Sites → Eval β} : Ends (get >>= f) s y s' ↔ Ends (f s) s y s' := Iff.rfl

theorem ends_set_bind {x : Sites} {f : Unit → Eval β} : Ends (set x >>= f) s y s' ↔ Ends (f ()) x y s' := Iff.rfl

end Eval

open Eval

variable {t : SymbolTable} {last : Bool} {s s' : Sites} {em : Emission}

/-- An aggregate call takes in its arguments, and gives its result on the last row. -/
theorem ends_feed {start : Accumulator} {args : List Value} (h : Ends (feed start last args) s em s') :
    ∃ a, ((s.accumulators[s.next]?).getD start).update args = .ok a ∧
      s' = ⟨Sites.put s.next (if last then a.fresh else a) s.accumulators, s.next + 1⟩ ∧
      if last then ∃ v, a.result = .ok v ∧ em = .emit v else em = .suppressed := by
  obtain ⟨a, updated, h⟩ := ends_lift_bind.1 (ends_set_bind.1 (ends_get_bind.1 h))
  refine ⟨a, updated, ?_⟩
  cases last with
  | true =>
    obtain ⟨v, result, h⟩ := ends_lift_bind.1 (ends_set_bind.1 h)
    obtain ⟨rfl, rfl⟩ := ends_pure.1 h
    exact ⟨rfl, v, result, rfl⟩
  | false =>
    rw [if_neg Bool.false_ne_true, ends_set_bind] at h
    obtain ⟨rfl, rfl⟩ := ends_pure.1 h
    exact ⟨rfl, rfl⟩

namespace Expr

theorem ends_literal {v : Value} (h : Ends ((literal v).eval t last) s em s') : em = .emit v ∧ s' = s := by
  rw [eval] at h
  exact ends_pure.1 h

theorem ends_variable {name : String} (h : Ends ((Expr.variable name).eval t last) s em s') :
    ∃ v, t.value name = .ok v ∧ em = .emit v ∧ s' = s := by
  rw [eval] at h
  obtain ⟨v, value, h⟩ := ends_lift_bind.1 h
  exact ⟨v, value, ends_pure.1 h⟩

theorem ends_call {f : String} {args : List Expr} (h : Ends ((call f args).eval t last) s em s') :
    ∃ fn values s₁, t.function f = .ok fn ∧ fn.checkArity args.length = .ok () ∧
      Ends (evalAll t last args) s values s₁ ∧ Ends (fn.call last values) s₁ em s' := by
  rw [eval] at h
  obtain ⟨fn, found, h⟩ := ends_lift_bind.1 h
  obtain ⟨_, arity, h⟩ := ends_lift_bind.1 h
  obtain ⟨values, s₁, evaluated, h⟩ := ends_bind.1 h
  exact ⟨fn, values, s₁, found, arity, evaluated, h⟩

theorem ends_binary {l r : Expr} {op : BinaryOp} (h : Ends ((binary l op r).eval t last) s em s') :
    ∃ left s₁ right, Ends (l.eval t last) s left s₁ ∧ Ends (r.eval t last) s₁ right s' ∧
      ((∃ x y v, left = .emit x ∧ right = .emit y ∧ op.apply x y = .ok v ∧ em = .emit v) ∨
        ((left = .suppressed ∨ right = .suppressed) ∧ em = .suppressed)) := by
  rw [eval] at h
  obtain ⟨left, s₁, first, h⟩ := ends_bind.1 h
  obtain ⟨right, s₂, second, h⟩ := ends_bind.1 h
  refine ⟨left, s₁, right, first, ?_⟩
  cases left with
  | suppressed =>
    obtain ⟨rfl, rfl⟩ := ends_pure.1 h
    exact ⟨second, .inr ⟨.inl rfl, rfl⟩⟩
  | emit x =>
    cases right with
    | suppressed =>
      obtain ⟨rfl, rfl⟩ := ends_pure.1 h
      exact ⟨second, .inr ⟨.inr rfl, rfl⟩⟩
    | emit y =>
      obtain ⟨v, applied, h⟩ := ends_lift_bind.1 h
      obtain ⟨rfl, rfl⟩ := ends_pure.1 h
      exact ⟨second, .inl ⟨x, y, v, rfl, rfl, applied, rfl⟩⟩

theorem ends_unary {op : UnaryOp} {e : Expr} (h : Ends ((unary op e).eval t last) s em s') :
    ∃ operand, Ends (e.eval t last) s operand s' ∧
      ((∃ x v, operand = .emit x ∧ op.apply x = .ok v ∧ em = .emit v) ∨
        (operand = .suppressed ∧ em = .suppressed)) := by
  rw [eval] at h
  obtain ⟨operand, s₁, evaluated, h⟩ := ends_bind.1 h
  refine ⟨operand, ?_⟩
  cases operand with
  | emit x =>
    obtain ⟨v, applied, h⟩ := ends_lift_bind.1 h
    obtain ⟨rfl, rfl⟩ := ends_pure.1 h
    exact ⟨evaluated, .inl ⟨x, v, rfl, applied, rfl⟩⟩
  | suppressed =>
    obtain ⟨rfl, rfl⟩ := ends_pure.1 h
    exact ⟨evaluated, .inr ⟨rfl, rfl⟩⟩

theorem ends_cons {e : Expr} {rest : List Expr} {values : Option (List Value)}
    (h : Ends (evalAll t last (e :: rest)) s values s') :
    ∃ first s₁ others, Ends (e.eval t last) s first s₁ ∧ Ends (evalAll t last rest) s₁ others s' ∧
      ((∃ v vs, first = .emit v ∧ others = some vs ∧ values = some (v :: vs)) ∨
        ((first = .suppressed ∨ others = none) ∧ values = none)) := by
  rw [evalAll] at h
  obtain ⟨first, s₁, head, h⟩ := ends_bind.1 h
  obtain ⟨others, s₂, tail, h⟩ := ends_bind.1 h
  refine ⟨first, s₁, others, head, ?_⟩
  cases first with
  | suppressed =>
    obtain ⟨rfl, rfl⟩ := ends_pure.1 h
    exact ⟨tail, .inr ⟨.inl rfl, rfl⟩⟩
  | emit v =>
    cases others with
    | none =>
      obtain ⟨rfl, rfl⟩ := ends_pure.1 h
      exact ⟨tail, .inr ⟨.inr rfl, rfl⟩⟩
    | some vs =>
      obtain ⟨rfl, rfl⟩ := ends_pure.1 h
      exact ⟨tail, .inl ⟨v, vs, rfl, rfl, rfl⟩⟩

end Expr

/-- What a function makes of its arguments. -/
theorem ends_functionCall {f : Function} {values : Option (List Value)} (h : Ends (f.call last values) s em s') :
    (∃ apply, f.body = .scalar apply ∧
      ((∃ vs v, values = some vs ∧ apply vs = .ok v ∧ em = .emit v ∧ s' = s) ∨
        (values = none ∧ em = .suppressed ∧ s' = s))) ∨
    ∃ start vs, f.body = .aggregate start ∧ values = some vs ∧ Ends (feed start last vs) s em s' := by
  cases values with
  | some vs =>
    cases body : f.body with
    | scalar apply =>
      simp only [Function.call, body] at h
      obtain ⟨v, applied, h⟩ := ends_lift_bind.1 h
      obtain ⟨rfl, rfl⟩ := ends_pure.1 h
      exact .inl ⟨apply, rfl, .inl ⟨vs, v, rfl, applied, rfl, rfl⟩⟩
    | aggregate start =>
      simp only [Function.call, body] at h
      exact .inr ⟨start, vs, rfl, rfl, h⟩
  | none =>
    cases body : f.body with
    | scalar apply =>
      simp only [Function.call, body] at h
      obtain ⟨rfl, rfl⟩ := ends_pure.1 h
      exact .inl ⟨apply, rfl, .inr ⟨rfl, rfl, rfl⟩⟩
    | aggregate start =>
      simp only [Function.call, body] at h
      exact absurd h (not_ends_throw _)

end FragmentEngine
