import FragmentEngine.Proofs.Expr.Evaluation
import FragmentEngine.Proofs.Expr.SymbolTable
/-!
# Rolling up a group

What an expression with aggregates stands for over the rows of a group, and that evaluation row by row with one
accumulator for each aggregate call computes it.
-/

namespace FragmentEngine

/-- An aggregate call: the state its accumulator starts from, and its arguments. -/
structure AggregateCall where
  start : Accumulator
  args : List Expr

/-- The accumulator after some rows. -/
def AggregateCall.after (call : AggregateCall) (rows : List SymbolTable) : Except Error Accumulator :=
  rows.foldlM (fun a row => do a.update (← call.args.mapM (·.evaluate row))) call.start

namespace Expr

mutual

/-- No aggregate is called within the arguments of an aggregate. -/
def isFlat (registry : Registry) : Expr → Bool
  | .literal _ | .variable _ => true
  | .call f args =>
    if (registry.find? f).any Function.isAggregate then !registry.aggregates (functionNamesAll args)
    else isFlatAll registry args
  | .binary l _ r => isFlat registry l && isFlat registry r
  | .unary _ e => isFlat registry e

def isFlatAll (registry : Registry) : List Expr → Bool
  | [] => true
  | e :: rest => isFlat registry e && isFlatAll registry rest

end

mutual

/-- The value for the rows of a group, `last` being the last of them: every aggregate call stands for its
accumulator's result after all rows, and everything else is evaluated at the last row. -/
def rollUp (rows : List SymbolTable) (last : SymbolTable) : Expr → Except Error Value
  | .literal v => .ok v
  | .variable name => last.value name
  | .call f args => do
    let fn ← last.function f
    fn.checkArity args.length
    match fn.body with
    | .scalar apply => apply (← rollUpAll rows last args)
    | .aggregate start => (← (AggregateCall.mk start args).after rows).result
  | .binary l op r => do op.apply (← rollUp rows last l) (← rollUp rows last r)
  | .unary op e => do op.apply (← rollUp rows last e)

def rollUpAll (rows : List SymbolTable) (last : SymbolTable) : List Expr → Except Error (List Value)
  | [] => .ok []
  | e :: rest => return (← rollUp rows last e) :: (← rollUpAll rows last rest)

end

mutual

/-- The aggregate calls in the order in which evaluation meets them. -/
def aggregateCalls (registry : Registry) : Expr → List AggregateCall
  | .literal _ | .variable _ => []
  | .call f args =>
    match (registry.find? f).map Function.body with
    | some (.aggregate start) => [⟨start, args⟩]
    | _ => aggregateCallsAll registry args
  | .binary l _ r => aggregateCalls registry l ++ aggregateCalls registry r
  | .unary _ e => aggregateCalls registry e

def aggregateCallsAll (registry : Registry) : List Expr → List AggregateCall
  | [] => []
  | e :: rest => aggregateCalls registry e ++ aggregateCallsAll registry rest

end

end Expr

section Call

variable {t : SymbolTable} {f : String} {args : List Expr} {fn : Function}

theorem Expr.rollUp_scalar (rows : List SymbolTable) {apply : List Value → Except Error Value}
    (found : t.function f = .ok fn) (arity : fn.checkArity args.length = .ok ()) (body : fn.body = .scalar apply) :
    rollUp rows t (.call f args) = rollUpAll rows t args >>= apply := by
  rw [rollUp, found, Outcome.ok_bind, arity, Outcome.ok_bind, body]

theorem Expr.rollUp_aggregate (rows : List SymbolTable) {start : Accumulator} (found : t.function f = .ok fn)
    (arity : fn.checkArity args.length = .ok ()) (body : fn.body = .aggregate start) :
    rollUp rows t (.call f args) = (AggregateCall.mk start args).after rows >>= Accumulator.result := by
  rw [rollUp, found, Outcome.ok_bind, arity, Outcome.ok_bind, body]

end Call

/-! ## Expressions without aggregates -/

namespace Eval

variable {α β : Type}

/-- An evaluation with an outcome that does not depend on the accumulators and leaves them alone. -/
def Steady (p : Eval α) (x : Except Error α) : Prop := ∀ s : Sites, p.run s = (x, s)

namespace Steady

variable {p : Eval α} {x : Except Error α} {f : α → Eval β} {g : α → Except Error β}

theorem pure (a : α) : Steady (pure a) (.ok a) := fun _ => rfl

theorem lift (x : Except Error α) : Steady (liftM x) x := fun _ => rfl

theorem bind (h : Steady p x) (next : ∀ a, x = .ok a → Steady (f a) (g a)) : Steady (p >>= f) (x >>= g) := by
  intro s
  rw [run_bind, h s]
  cases x with
  | error e => rfl
  | ok a => exact next a rfl s

theorem bind_of {γ : Type} {x : Except Error γ} {k : γ → α} {g : γ → Except Error β}
    (h : Steady p (x >>= fun c => .ok (k c))) (next : ∀ c, Steady (f (k c)) (g c)) : Steady (p >>= f) (x >>= g) := by
  intro s
  rw [run_bind, h s]
  cases x with
  | error e => rfl
  | ok c => exact next c s

theorem ends (h : Steady p x) {s s' : Sites} {a : α} (done : Ends p s a s') : x = .ok a ∧ s' = s := by
  rw [Ends, h s] at done
  cases done
  exact ⟨rfl, rfl⟩

end Steady

end Eval

open Eval

namespace Registry

theorem aggregates_append (registry : Registry) (xs ys : List String) :
    registry.aggregates (xs ++ ys) = (registry.aggregates xs || registry.aggregates ys) := List.any_append

end Registry

namespace Expr

variable {t : SymbolTable}

mutual

/-- Without aggregates there is nothing to accumulate. -/
theorem steady_eval (rows : List SymbolTable) (last : Bool) :
    ∀ e : Expr, t.registry.aggregates e.functionNames = false →
      Steady (e.eval t last) (e.rollUp rows t >>= fun v => .ok (.emit v))
  | .literal v, _ => by
    rw [eval, rollUp]
    exact .pure _
  | .variable name, _ => by
    rw [eval, rollUp]
    exact (Steady.lift _).bind fun v _ => .pure _
  | .call f args, plain => by
    rw [functionNames, Registry.aggregates, List.any_cons, Bool.or_eq_false_iff] at plain
    have inner := steady_evalAll rows last args plain.2
    rw [eval, rollUp, bind_assoc]
    refine (Steady.lift _).bind fun fn found => ?_
    rw [bind_assoc]
    refine (Steady.lift _).bind fun _ _ => ?_
    have scalar := plain.1
    rw [SymbolTable.function_eq_ok.1 found, Option.any_some] at scalar
    cases body : fn.body with
    | aggregate start => simp [Function.isAggregate, body] at scalar
    | scalar apply =>
      simp only [Function.call, body, bind_assoc]
      exact inner.bind_of fun vs => (Steady.lift _).bind fun v _ => .pure _
  | .binary l op r, plain => by
    rw [functionNames, Registry.aggregates_append, Bool.or_eq_false_iff] at plain
    have left := steady_eval rows last l plain.1
    have right := steady_eval rows last r plain.2
    simp only [eval, rollUp, bind_assoc]
    exact left.bind_of fun x => right.bind_of fun y => (Steady.lift _).bind fun v _ => .pure _
  | .unary op e, plain => by
    have operand := steady_eval rows last e plain
    simp only [eval, rollUp, bind_assoc]
    exact operand.bind_of fun x => (Steady.lift _).bind fun v _ => .pure _

theorem steady_evalAll (rows : List SymbolTable) (last : Bool) :
    ∀ es : List Expr, t.registry.aggregates (functionNamesAll es) = false →
      Steady (evalAll t last es) (rollUpAll rows t es >>= fun vs => .ok (some vs))
  | [], _ => by
    rw [evalAll, rollUpAll]
    exact .pure _
  | e :: rest, plain => by
    rw [functionNamesAll, Registry.aggregates_append, Bool.or_eq_false_iff] at plain
    have first := steady_eval rows last e plain.1
    have others := steady_evalAll rows last rest plain.2
    simp only [evalAll, rollUpAll, bind_assoc]
    exact first.bind_of fun v => others.bind_of fun vs => .pure _

end

/-- Without aggregates the rows before the last do not matter. -/
theorem evaluate_eq_rollUp (rows : List SymbolTable) {e : Expr}
    (plain : t.registry.aggregates e.functionNames = false) : e.evaluate t = e.rollUp rows t := by
  have run : (e.eval t true).run.run ⟨[], 0⟩ = (e.rollUp rows t >>= fun v => .ok (.emit v), ⟨[], 0⟩) :=
    steady_eval rows true e plain ⟨[], 0⟩
  simp only [evaluate, evalRow, run]
  cases e.rollUp rows t <;> rfl

theorem mapM_evaluate (rows : List SymbolTable) {es : List Expr}
    (plain : t.registry.aggregates (functionNamesAll es) = false) :
    es.mapM (·.evaluate t) = rollUpAll rows t es := by
  induction es with
  | nil => rfl
  | cons e es ih =>
    rw [functionNamesAll, Registry.aggregates_append, Bool.or_eq_false_iff] at plain
    rw [List.mapM_cons, ih plain.2, evaluate_eq_rollUp rows plain.1, rollUpAll]

mutual

/-- An expression is aggregating if it has an aggregate call. -/
theorem aggregateCalls_eq_nil {registry : Registry} :
    ∀ e : Expr, e.aggregateCalls registry = [] → registry.aggregates e.functionNames = false
  | .literal _, _ | .variable _, _ => rfl
  | .call f args, empty => by
    have split : registry.aggregates (call f args).functionNames =
        ((registry.find? f).any Function.isAggregate || registry.aggregates (functionNamesAll args)) := rfl
    rw [aggregateCalls] at empty
    rw [split]
    cases found : registry.find? f with
    | none =>
      rw [found] at empty
      exact aggregateCallsAll_eq_nil args empty
    | some fn =>
      rw [found, Option.map_some] at empty
      cases body : fn.body with
      | aggregate start => simp [body] at empty
      | scalar apply =>
        rw [body] at empty
        simpa [Function.isAggregate, body] using aggregateCallsAll_eq_nil args empty
  | .binary l _ r, empty => by
    rw [aggregateCalls, List.append_eq_nil_iff] at empty
    rw [functionNames, Registry.aggregates_append, aggregateCalls_eq_nil l empty.1, aggregateCalls_eq_nil r empty.2]
    rfl
  | .unary _ e, empty => aggregateCalls_eq_nil e empty

theorem aggregateCallsAll_eq_nil {registry : Registry} :
    ∀ es : List Expr, aggregateCallsAll registry es = [] → registry.aggregates (functionNamesAll es) = false
  | [], _ => rfl
  | e :: rest, empty => by
    rw [aggregateCallsAll, List.append_eq_nil_iff] at empty
    rw [functionNamesAll, Registry.aggregates_append, aggregateCalls_eq_nil e empty.1,
      aggregateCallsAll_eq_nil rest empty.2]
    rfl

end

end Expr

/-! ## One row -/

/-- From the `n`th on, the accumulators of aggregate calls have taken in the rows; those not there yet are at
their start. -/
def TakenIn (rows : List SymbolTable) (accumulators : List Accumulator) : Nat → List AggregateCall → Prop
  | _, [] => True
  | n, call :: calls =>
    call.after rows = .ok ((accumulators[n]?).getD call.start) ∧ TakenIn rows accumulators (n + 1) calls

namespace TakenIn

variable {rows : List SymbolTable} {as bs : List Accumulator} {n : Nat} {calls more : List AggregateCall}

theorem append :
    TakenIn rows as n (calls ++ more) ↔ TakenIn rows as n calls ∧ TakenIn rows as (n + calls.length) more := by
  induction calls generalizing n with
  | nil => simp [TakenIn]
  | cons call calls ih =>
    rw [List.cons_append, TakenIn, TakenIn, ih, List.length_cons, and_assoc, Nat.add_assoc, Nat.add_comm 1]

theorem congr (h : TakenIn rows as n calls) (same : ∀ i, n ≤ i → i < n + calls.length → bs[i]? = as[i]?) :
    TakenIn rows bs n calls := by
  induction calls generalizing n with
  | nil => trivial
  | cons call calls ih =>
    rw [List.length_cons] at same
    refine ⟨?_, ih h.2 fun i ge lt => same i (by omega) (by omega)⟩
    rw [same n (Nat.le_refl n) (by omega)]
    exact h.1

/-- Before the first row there are no accumulators. -/
theorem start (n : Nat) (calls : List AggregateCall) : TakenIn [] [] n calls := by
  induction calls generalizing n with
  | nil => trivial
  | cons call calls ih => exact ⟨rfl, ih (n + 1)⟩

end TakenIn

/-- A row has been taken in by the accumulators of aggregate calls, which come next in the order of evaluation;
the others are as before. On the last row nothing is kept. -/
structure Walked (rows : List SymbolTable) (t : SymbolTable) (last : Bool) (calls : List AggregateCall)
    (s s' : Sites) : Prop where
  next : s'.next = s.next + calls.length
  room : s'.next ≤ s'.accumulators.length
  frame : ∀ i, i < s.next ∨ s'.next ≤ i → s'.accumulators[i]? = s.accumulators[i]?
  taken : last = false → TakenIn (rows ++ [t]) s'.accumulators s.next calls

/-- What a walk over aggregate calls gives: the outcome `x`, or nothing as long as there is a call and a row to
come. -/
inductive Told {α : Type} (last : Bool) (calls : List AggregateCall) (x : Except Error α) : Option α → Prop where
  | value (v : α) (due : last = true ∨ calls = []) (h : x = .ok v) : Told last calls x (some v)
  | waiting (early : last = false) (pending : calls ≠ []) : Told last calls x none

/-- The value of an emission. -/
def Emission.value? : Emission → Option Value
  | .emit v => some v
  | .suppressed => none

section Walk

variable {rows : List SymbolTable} {t : SymbolTable} {last : Bool} {s s₁ s' : Sites} {calls more : List AggregateCall}

theorem Sites.getElem?_put {n : Nat} {as : List Accumulator} (room : n ≤ as.length) (a : Accumulator) (i : Nat) :
    (Sites.put n a as)[i]? = if i = n then some a else as[i]? := by
  unfold Sites.put
  split
  next inside => grind
  next outside => grind

theorem Sites.length_put {n : Nat} {as : List Accumulator} (room : n ≤ as.length) (a : Accumulator) :
    n + 1 ≤ (Sites.put n a as).length := by
  unfold Sites.put
  split
  · rw [List.length_set]
    omega
  · rw [List.length_append, List.length_singleton]
    omega

theorem Walked.none (room : s.next ≤ s.accumulators.length) : Walked rows t last [] s s :=
  ⟨rfl, room, fun _ _ => rfl, fun _ => trivial⟩

theorem Walked.append (h : Walked rows t last calls s s₁) (h' : Walked rows t last more s₁ s') :
    Walked rows t last (calls ++ more) s s' := by
  have next := h.next
  have next' := h'.next
  refine ⟨?_, h'.room, fun i out => ?_, fun early => TakenIn.append.2 ⟨?_, ?_⟩⟩
  · rw [List.length_append]
    omega
  · rw [h'.frame i (by omega), h.frame i (by omega)]
  -- what the first walk has taken in is outside the second one's sites
  · exact (h.taken early).congr fun i _ lt => h'.frame i (by omega)
  · rw [← next]
    exact h'.taken early

/-- The calls that a walk has not come to yet are as before. -/
theorem Walked.ahead (h : Walked rows t last calls s s₁) (taken : TakenIn rows s.accumulators s.next (calls ++ more)) :
    TakenIn rows s₁.accumulators s₁.next more := by
  have next := h.next
  rw [next]
  exact (TakenIn.append.1 taken).2.congr fun i ge _ => h.frame i (by omega)

theorem Told.value_iff {α : Type} {x : Except Error α} {v : α} (h : Told last calls x (some v)) :
    x = .ok v ∧ (last = true ∨ calls = []) := by
  cases h with
  | value _ due h => exact ⟨h, due⟩

theorem Told.none_iff {α : Type} {x : Except Error α} (h : Told last calls x none) : last = false ∧ calls ≠ [] := by
  cases h with
  | waiting early pending => exact ⟨early, pending⟩

/-- Two walks that both give a value are due together. -/
theorem due_append (h : last = true ∨ calls = []) (h' : last = true ∨ more = []) :
    last = true ∨ calls ++ more = [] := by
  rw [List.append_eq_nil_iff]
  tauto

/-- An aggregate call takes in the row at its own accumulator. -/
theorem walk_feed {call : AggregateCall} {vs : List Value} {em : Emission} (room : s.next ≤ s.accumulators.length)
    (taken : TakenIn rows s.accumulators s.next [call]) (args : call.args.mapM (·.evaluate t) = .ok vs)
    (h : Ends (feed call.start last vs) s em s') :
    Walked rows t last [call] s s' ∧ Told last [call] (call.after (rows ++ [t]) >>= Accumulator.result) em.value? := by
  obtain ⟨a, updated, rfl, told⟩ := ends_feed h
  have after : call.after (rows ++ [t]) = .ok a := by
    have before := taken.1
    unfold AggregateCall.after at before ⊢
    rw [List.foldlM_append, before, Outcome.bind_eq_ok]
    refine ⟨_, rfl, ?_⟩
    rw [List.foldlM_cons, args, Outcome.bind_eq_ok]
    exact ⟨a, updated, rfl⟩
  have put := fun a => Sites.getElem?_put room (a := a)
  constructor
  · refine ⟨rfl, ?_, fun i out => ?_, fun early => ⟨?_, trivial⟩⟩
    · exact Sites.length_put room _
    · simp only at out
      rw [put, if_neg (by omega)]
    · rw [put, if_pos rfl, early, after]
      rfl
  · cases last with
    | true =>
      obtain ⟨v, result, rfl⟩ := told
      exact .value v (.inl rfl) (by rw [after]; exact result)
    | false =>
      rw [told]
      exact .waiting rfl (List.cons_ne_nil _ _)

mutual

theorem walk_eval (last : Bool) : ∀ e : Expr, e.isFlat t.registry = true → ∀ {s s' : Sites} {em : Emission},
    s.next ≤ s.accumulators.length → TakenIn rows s.accumulators s.next (e.aggregateCalls t.registry) →
    Ends (e.eval t last) s em s' →
    Walked rows t last (e.aggregateCalls t.registry) s s' ∧
      Told last (e.aggregateCalls t.registry) (e.rollUp (rows ++ [t]) t) em.value?
  | .literal v, _ => by
    intro room taken h
    obtain ⟨rfl, rfl⟩ := Expr.ends_literal h
    exact ⟨.none room, .value v (.inr rfl) rfl⟩
  | .variable name, _ => by
    intro room taken h
    obtain ⟨v, value, rfl, rfl⟩ := Expr.ends_variable h
    exact ⟨.none room, .value v (.inr rfl) value⟩
  | .call f args, flat => by
    intro room taken h
    obtain ⟨fn, values, s₁, found, arity, evaluated, called⟩ := Expr.ends_call h
    have known := SymbolTable.function_eq_ok.1 found
    rw [Expr.isFlat, known, Option.any_some] at flat
    rw [Expr.aggregateCalls, known, Option.map_some] at taken ⊢
    rcases ends_functionCall called with ⟨apply, body, result⟩ | ⟨start, vs, body, rfl, fed⟩
    · have inner : Expr.isFlatAll t.registry args = true := by simpa [Function.isAggregate, body] using flat
      simp only [body] at taken ⊢
      obtain ⟨walked, told⟩ := walk_evalAll last args inner room taken evaluated
      rw [Expr.rollUp_scalar _ found arity body]
      rcases result with ⟨vs, v, rfl, applied, rfl, rfl⟩ | ⟨rfl, rfl, rfl⟩
      · obtain ⟨hvs, due⟩ := told.value_iff
        exact ⟨walked, .value v due (by rw [hvs]; exact applied)⟩
      · exact ⟨walked, .waiting told.none_iff.1 told.none_iff.2⟩
    -- the arguments of an aggregate have no site of their own, so that the call's is the next one
    · have plain : t.registry.aggregates (Expr.functionNamesAll args) = false := by
        simpa [Function.isAggregate, body] using flat
      simp only [body] at taken ⊢
      obtain ⟨got, rfl⟩ := (Expr.steady_evalAll rows last args plain).ends evaluated
      obtain ⟨_, hvs, same⟩ := Outcome.bind_eq_ok.1 got
      cases same
      rw [Expr.rollUp_aggregate _ found arity body]
      exact walk_feed room taken ((Expr.mapM_evaluate rows plain).trans hvs) fed
  | .binary l op r, flat => by
    intro room taken h
    rw [Expr.isFlat, Bool.and_eq_true] at flat
    obtain ⟨left, s₁, right, first, second, result⟩ := Expr.ends_binary h
    rw [Expr.aggregateCalls] at taken ⊢
    obtain ⟨walked, told⟩ := walk_eval last l flat.1 room (TakenIn.append.1 taken).1 first
    obtain ⟨walked', told'⟩ := walk_eval last r flat.2 walked.room (walked.ahead taken) second
    refine ⟨walked.append walked', ?_⟩
    rcases result with ⟨x, y, v, rfl, rfl, applied, rfl⟩ | ⟨partly, rfl⟩
    · obtain ⟨hx, due⟩ := told.value_iff
      obtain ⟨hy, due'⟩ := told'.value_iff
      refine .value v (due_append due due') ?_
      rw [Expr.rollUp, hx, hy]
      exact applied
    · rcases partly with rfl | rfl
      · exact .waiting told.none_iff.1 (by simp [told.none_iff.2])
      · exact .waiting told'.none_iff.1 (by simp [told'.none_iff.2])
  | .unary op e, flat => by
    intro room taken h
    obtain ⟨operand, evaluated, result⟩ := Expr.ends_unary h
    obtain ⟨walked, told⟩ := walk_eval last e flat room taken evaluated
    refine ⟨walked, ?_⟩
    rcases result with ⟨x, v, rfl, applied, rfl⟩ | ⟨rfl, rfl⟩
    · obtain ⟨hx, due⟩ := told.value_iff
      refine .value v due ?_
      rw [Expr.rollUp, hx]
      exact applied
    · exact .waiting told.none_iff.1 told.none_iff.2

theorem walk_evalAll (last : Bool) : ∀ es : List Expr, Expr.isFlatAll t.registry es = true →
    ∀ {s s' : Sites} {values : Option (List Value)},
    s.next ≤ s.accumulators.length → TakenIn rows s.accumulators s.next (Expr.aggregateCallsAll t.registry es) →
    Ends (Expr.evalAll t last es) s values s' →
    Walked rows t last (Expr.aggregateCallsAll t.registry es) s s' ∧
      Told last (Expr.aggregateCallsAll t.registry es) (Expr.rollUpAll (rows ++ [t]) t es) values
  | [], _ => by
    intro room taken h
    rw [Expr.evalAll] at h
    obtain ⟨rfl, rfl⟩ := ends_pure.1 h
    exact ⟨.none room, .value [] (.inr rfl) rfl⟩
  | e :: rest, flat => by
    intro room taken h
    rw [Expr.isFlatAll, Bool.and_eq_true] at flat
    obtain ⟨value, s₁, others, first, second, result⟩ := Expr.ends_cons h
    rw [Expr.aggregateCallsAll] at taken ⊢
    obtain ⟨walked, told⟩ := walk_eval last e flat.1 room (TakenIn.append.1 taken).1 first
    obtain ⟨walked', told'⟩ := walk_evalAll last rest flat.2 walked.room (walked.ahead taken) second
    refine ⟨walked.append walked', ?_⟩
    rcases result with ⟨v, vs, rfl, rfl, rfl⟩ | ⟨partly, rfl⟩
    · obtain ⟨hv, due⟩ := told.value_iff
      obtain ⟨hvs, due'⟩ := told'.value_iff
      refine .value (v :: vs) (due_append due due') ?_
      rw [Expr.rollUpAll, hv, hvs]
      rfl
    · rcases partly with rfl | rfl
      · exact .waiting told.none_iff.1 (by simp [told.none_iff.2])
      · exact .waiting told'.none_iff.1 (by simp [told'.none_iff.2])

end

end Walk

end FragmentEngine
