import FragmentEngine.Proofs.Expr.Emission
/-!
# Rows by themselves

A row that is a group by itself is rolled up on the spot: each aggregate call starts fresh, takes the row in and gives
its result, also where it stands in the arguments of another aggregate. In a group of several rows such a nest of
aggregates is refused, because no row but the last can be evaluated.
-/

namespace FragmentEngine

open Eval

variable {t : SymbolTable}

/-! ## Every call starts fresh -/

namespace Eval

variable {α β : Type}

/-- An evaluation on a row by itself, with its outcome: an accumulator is there for each call so far and for none to
come. -/
def Alone (p : Eval α) (x : Except Error α) : Prop :=
  ∀ s : Sites, s.accumulators.length = s.next →
    ∃ s', p.run s = (x, s') ∧ ∀ a, x = .ok a → s'.accumulators.length = s'.next

namespace Alone

variable {p : Eval α} {x : Except Error α} {f : α → Eval β} {g : α → Except Error β}

theorem pure (a : α) : Alone (pure a) (.ok a) := fun s full => ⟨s, rfl, fun _ _ => full⟩

theorem lift (x : Except Error α) : Alone (liftM x) x := fun s full => ⟨s, rfl, fun _ _ => full⟩

theorem bind_of {γ : Type} {x : Except Error γ} {k : γ → α} {g : γ → Except Error β}
    (h : Alone p (x >>= fun c => .ok (k c))) (next : ∀ c, x = .ok c → Alone (f (k c)) (g c)) :
    Alone (p >>= f) (x >>= g) := by
  intro s full
  obtain ⟨s₁, first, full₁⟩ := h s full
  rw [run_bind, first]
  cases x with
  | error e => exact ⟨s₁, rfl, nofun⟩
  | ok c => exact next c rfl s₁ (full₁ (k c) rfl)

theorem bind (h : Alone p x) (next : ∀ a, x = .ok a → Alone (f a) (g a)) : Alone (p >>= f) (x >>= g) := by
  refine bind_of (k := id) ?_ next
  rw [show (x >>= fun a => .ok (id a)) = x from bind_pure x]
  exact h

/-- An aggregate call comes after all accumulators, so it starts fresh and leaves one more. -/
theorem feed (start : Accumulator) (args : List Value) :
    Alone (feed start true args) (start.update args >>= fun a => a.result >>= fun v => .ok (.emit v)) := by
  intro s full
  have fresh : (s.accumulators[s.next]?).getD start = start := by
    rw [List.getElem?_eq_none (Nat.le_of_eq full), Option.getD_none]
  have more (a : Accumulator) : (Sites.put s.next a s.accumulators).length = s.next + 1 := by
    rw [Sites.put, if_neg (by omega), List.length_append, full, List.length_singleton]
  unfold FragmentEngine.feed
  show ∃ s', (liftM (((s.accumulators[s.next]?).getD start).update args) >>= _ : Eval Emission).run
    { s with next := s.next + 1 } = _ ∧ _
  rw [fresh]
  cases start.update args with
  | error e => exact ⟨_, rfl, fun _ failed => by cases failed⟩
  | ok a =>
    show ∃ s', (liftM a.result >>= _ : Eval Emission).run ⟨Sites.put s.next a.fresh s.accumulators, s.next + 1⟩ = _ ∧ _
    rw [Outcome.ok_bind]
    cases a.result with
    | error e => exact ⟨_, rfl, fun _ failed => by cases failed⟩
    | ok v => exact ⟨_, rfl, fun _ _ => more a.fresh⟩

end Alone

end Eval

/-- An aggregate over one row: its arguments are evaluated there and taken in. -/
theorem AggregateCall.after_singleton (call : AggregateCall) (t : SymbolTable) :
    call.after [t] = call.args.mapM (·.evaluate t) >>= fun vs => call.start.update vs := by
  rw [after, List.foldlM_cons]
  exact bind_pure _

namespace Expr

theorem evaluate_of_alone {e : Expr} {x : Except Error Value}
    (h : Alone (e.eval t true) (x >>= fun v => .ok (.emit v))) : e.evaluate t = x := by
  obtain ⟨s, run, -⟩ := h ⟨[], 0⟩ rfl
  simp only [evaluate, evalRow, StateT.run, run]
  cases x <;> rfl

mutual

theorem alone_eval : ∀ e : Expr, Alone (e.eval t true) (e.rollUp [t] t >>= fun v => .ok (.emit v))
  | .literal v => by
    rw [eval, rollUp]
    exact .pure _
  | .variable name => by
    rw [eval, rollUp]
    exact (Alone.lift _).bind fun v _ => .pure _
  | .call f args => by
    have inner := alone_evalAll args
    rw [eval, rollUp, bind_assoc]
    refine (Alone.lift _).bind fun fn found => ?_
    rw [bind_assoc]
    refine (Alone.lift _).bind fun _ _ => ?_
    cases body : fn.body with
    | scalar apply =>
      simp only [Function.call, body, bind_assoc]
      exact inner.bind_of fun vs _ => (Alone.lift _).bind fun v _ => .pure _
    | aggregate start =>
      simp only [Function.call, body, bind_assoc, AggregateCall.after_singleton, mapM_evaluate_alone args]
      exact inner.bind_of fun vs _ => .feed start vs
  | .binary l op r => by
    simp only [eval, rollUp, bind_assoc]
    exact (alone_eval l).bind_of fun x _ => (alone_eval r).bind_of fun y _ =>
      (Alone.lift _).bind fun v _ => .pure _
  | .unary op e => by
    simp only [eval, rollUp, bind_assoc]
    exact (alone_eval e).bind_of fun x _ => (Alone.lift _).bind fun v _ => .pure _

theorem alone_evalAll : ∀ es : List Expr,
    Alone (evalAll t true es) (rollUpAll [t] t es >>= fun vs => .ok (some vs))
  | [] => by
    rw [evalAll, rollUpAll]
    exact .pure _
  | e :: rest => by
    simp only [evalAll, rollUpAll, bind_assoc]
    exact (alone_eval e).bind_of fun v _ => (alone_evalAll rest).bind_of fun vs _ => .pure _

theorem mapM_evaluate_alone : ∀ es : List Expr, es.mapM (·.evaluate t) = rollUpAll [t] t es
  | [] => rfl
  | e :: rest => by
    rw [List.mapM_cons, evaluate_of_alone (alone_eval e), mapM_evaluate_alone rest, rollUpAll]

end

/-- A row by itself is rolled up, nested aggregates and all. -/
theorem evaluate_eq_rollUp_singleton (e : Expr) (t : SymbolTable) : e.evaluate t = e.rollUp [t] t :=
  evaluate_of_alone (alone_eval e)

/-! ## Several rows -/

mutual

/-- Before the last row an evaluation succeeds only without nested aggregates. -/
theorem isFlat_of_ends : ∀ (e : Expr) {s s' : Sites} {em : Emission}, Ends (e.eval t false) s em s' →
    e.isFlat t.registry = true
  | .literal _, _, _, _, _ | .variable _, _, _, _, _ => rfl
  | .call f args, s, s', em, h => by
    obtain ⟨fn, values, s₁, found, -, evaluated, called⟩ := ends_call h
    rw [isFlat, SymbolTable.function_eq_ok.1 found, Option.any_some]
    rcases ends_functionCall called with ⟨apply, body, -⟩ | ⟨start, vs, body, rfl, -⟩
    · simpa [Function.isAggregate, body] using isFlatAll_of_ends args evaluated
    -- an argument that calls an aggregate would have been suppressed
    · have plain : t.registry.aggregates (functionNamesAll args) = false := by
        by_contra aggregating
        cases (none_iff args evaluated).2 ⟨rfl, (Bool.not_eq_false _).mp aggregating⟩
      simp [Function.isAggregate, body, plain]
  | .binary l op r, s, s', em, h => by
    obtain ⟨left, s₁, right, first, second, -⟩ := ends_binary h
    rw [isFlat, isFlat_of_ends l first, isFlat_of_ends r second]
    rfl
  | .unary op e, s, s', em, h => by
    obtain ⟨operand, evaluated, -⟩ := ends_unary h
    exact isFlat_of_ends e evaluated

theorem isFlatAll_of_ends : ∀ (es : List Expr) {s s' : Sites} {values : Option (List Value)},
    Ends (evalAll t false es) s values s' → isFlatAll t.registry es = true
  | [], _, _, _, _ => rfl
  | e :: rest, s, s', values, h => by
    obtain ⟨value, s₁, others, first, second, -⟩ := ends_cons h
    rw [isFlatAll, isFlat_of_ends e first, isFlatAll_of_ends rest second]
    rfl

end

mutual

theorem isFlat_of_plain {registry : Registry} : ∀ e : Expr, registry.aggregates e.functionNames = false →
    e.isFlat registry = true
  | .literal _, _ | .variable _, _ => rfl
  | .call f args, plain => by
    rw [functionNames, Registry.aggregates_cons, Bool.or_eq_false_iff] at plain
    rw [isFlat, plain.1, if_neg Bool.false_ne_true]
    exact isFlatAll_of_plain args plain.2
  | .binary l op r, plain => by
    rw [functionNames, Registry.aggregates_append, Bool.or_eq_false_iff] at plain
    rw [isFlat, isFlat_of_plain l plain.1, isFlat_of_plain r plain.2]
    rfl
  | .unary op e, plain => isFlat_of_plain e plain

theorem isFlatAll_of_plain {registry : Registry} : ∀ es : List Expr,
    registry.aggregates (functionNamesAll es) = false → isFlatAll registry es = true
  | [], _ => rfl
  | e :: rest, plain => by
    rw [functionNamesAll, Registry.aggregates_append, Bool.or_eq_false_iff] at plain
    rw [isFlatAll, isFlat_of_plain e plain.1, isFlatAll_of_plain rest plain.2]
    rfl

end

/-- Nested aggregates are refused on every row but the last of a group. -/
theorem exists_error_of_nested {e : Expr} (nested : e.isFlat t.registry = false) (accumulators : List Accumulator) :
    ∃ error, (e.evalRow t false accumulators).1 = .error error := by
  rcases run : (e.eval t false).run ⟨accumulators, 0⟩ with ⟨error | em, s⟩
  · exact ⟨error, congrArg Prod.fst run⟩
  · rw [isFlat_of_ends e run] at nested
    cases nested

end Expr

end FragmentEngine
