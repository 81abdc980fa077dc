import FragmentEngine.Proofs.Expr.RollUp
/-!
# Emissions

What evaluating one row of a group gives. A row that succeeds emits a value or is suppressed, and which of the two is
settled by the expression and the place of the row alone. A row fails for its values, for a name that stands for
nothing, or because a function refuses; aggregates of aggregates are refused before the last row and never on it.
-/

namespace FragmentEngine

open Eval Outcome

variable {t : SymbolTable} {last : Bool}

/-! ## Values and suppressed rows -/

theorem Registry.aggregates_cons (registry : Registry) (name : String) (names : List String) :
    registry.aggregates (name :: names) =
      ((registry.find? name).any Function.isAggregate || registry.aggregates names) := List.any_cons

namespace Expr

mutual

/-- A row is suppressed exactly if it is not the last one and the expression calls an aggregate. -/
theorem suppressed_iff : ∀ (e : Expr) {s s' : Sites} {em : Emission}, Ends (e.eval t last) s em s' →
    (em = .suppressed ↔ last = false ∧ t.registry.aggregates e.functionNames = true)
  | .literal v, s, s', em, h => by
    obtain ⟨rfl, -⟩ := ends_literal h
    simp [functionNames, Registry.aggregates]
  | .variable name, s, s', em, h => by
    obtain ⟨v, -, rfl, -⟩ := ends_variable h
    simp [functionNames, Registry.aggregates]
  | .call f args, s, s', em, h => by
    obtain ⟨fn, values, s₁, found, -, evaluated, called⟩ := ends_call h
    have arguments := none_iff args evaluated
    rw [functionNames, Registry.aggregates_cons, SymbolTable.function_eq_ok.1 found, Option.any_some]
    rcases ends_functionCall called with ⟨apply, body, result⟩ | ⟨start, vs, body, rfl, fed⟩
    -- a scalar function is suppressed with its arguments
    · have scalar : fn.isAggregate = false := by simp [Function.isAggregate, body]
      rw [scalar, Bool.false_or, ← arguments]
      rcases result with ⟨vs, v, rfl, -, rfl, -⟩ | ⟨rfl, rfl, -⟩ <;> simp
    -- an aggregate is suppressed by itself
    · have aggregate : fn.isAggregate = true := by simp [Function.isAggregate, body]
      obtain ⟨a, -, -, told⟩ := ends_feed fed
      cases last with
      | true =>
        obtain ⟨v, -, rfl⟩ := told
        simp
      | false =>
        rw [if_neg Bool.false_ne_true] at told
        simp [aggregate, told]
  | .binary l op r, s, s', em, h => by
    obtain ⟨left, s₁, right, first, second, result⟩ := ends_binary h
    have left_iff := suppressed_iff l first
    have right_iff := suppressed_iff r second
    rw [functionNames, Registry.aggregates_append, Bool.or_eq_true, and_or_left, ← left_iff, ← right_iff]
    rcases result with ⟨x, y, v, rfl, rfl, -, rfl⟩ | ⟨partly, rfl⟩
    · simp
    · simp [partly]
  | .unary op e, s, s', em, h => by
    obtain ⟨operand, evaluated, result⟩ := ends_unary h
    rw [functionNames, ← suppressed_iff e evaluated]
    rcases result with ⟨x, v, rfl, -, rfl⟩ | ⟨rfl, rfl⟩ <;> simp

theorem none_iff : ∀ (es : List Expr) {s s' : Sites} {values : Option (List Value)},
    Ends (evalAll t last es) s values s' →
    (values = none ↔ last = false ∧ t.registry.aggregates (functionNamesAll es) = true)
  | [], s, s', values, h => by
    rw [evalAll] at h
    obtain ⟨rfl, -⟩ := ends_pure.1 h
    simp [functionNamesAll, Registry.aggregates]
  | e :: rest, s, s', values, h => by
    obtain ⟨value, s₁, others, first, second, result⟩ := ends_cons h
    have first_iff := suppressed_iff e first
    have others_iff := none_iff rest second
    rw [functionNamesAll, Registry.aggregates_append, Bool.or_eq_true, and_or_left, ← first_iff, ← others_iff]
    rcases result with ⟨v, vs, rfl, rfl, rfl⟩ | ⟨partly, rfl⟩
    · simp
    · simp [partly]

end

end Expr

/-! ## Causes of failure -/

/-- The causes that lie in values, and in how many there are. -/
def Error.isOfValues : Error → Bool
  | .exec (.argumentCount _ _ _) | .exec (.argumentType _ _) | .exec .divisionByZero | .exec (.notPositive _ _)
  | .exec (.integerOverflow _) | .exec (.extentOverflow _) | .exec (.emptyGroup _) => true
  | _ => false

/-- The causes that lie in a row and its values. -/
def Error.isOfRow : Error → Bool
  | .exec (.unknownSymbol _) | .exec (.argumentCount _ _ _) | .exec (.argumentType _ _) | .exec .divisionByZero
  | .exec (.notPositive _ _) | .exec (.integerOverflow _) | .exec (.extentOverflow _) | .exec (.emptyGroup _) => true
  | _ => false

theorem Error.isOfRow_of_isOfValues {error : Error} (h : error.isOfValues = true) : error.isOfRow = true := by
  unfold isOfValues at h
  split at h <;> first | rfl | cases h

/-- A computation fails for causes that lie in its values. -/
abbrev FailsByValues {α : Type} (x : Except Error α) : Prop := FailsOnly (·.isOfValues = true) x

namespace FailsByValues

open FailsOnly

theorem toLong (context : String) (v : Value) : FailsByValues (v.toLong context) := by
  cases v with
  | double _ | long _ => exact ok _
  | str _ | binary _ => exact error rfl

theorem toDouble (context : String) (v : Value) : FailsByValues (v.toDouble context) := by
  cases v with
  | double _ | long _ => exact ok _
  | str _ | binary _ => exact error rfl

/-! ### Index functions -/

theorem positive (function quantity : String) (v : Value) : FailsByValues (Index.positive function quantity v) := by
  refine (toLong function v).bind fun n _ => ?_
  dsimp only
  split
  · exact error rfl
  · exact ok _

theorem checked (function : String) (n : Int) : FailsByValues (Index.checked function n) := by
  unfold Index.checked
  split
  · exact ok _
  · exact error rfl

theorem innerExtent (inner : Int) (sizes : List Value) : FailsByValues (Index.innerExtent inner sizes) := by
  induction sizes generalizing inner with
  | nil => exact ok _
  | cons size sizes ih =>
    rw [Index.innerExtent]
    refine (positive _ _ size).bind fun n _ => ?_
    split
    · exact ih _
    · exact error rfl

theorem blockOf (args : List Value) : FailsByValues (Index.blockOf args) := by
  unfold Index.blockOf
  split
  · exact (toLong _ _).bind fun _ _ => (positive _ _ _).bind fun _ _ => (checked _ _).bind fun _ _ => ok _
  · exact error rfl

theorem collapse (args : List Value) : FailsByValues (Index.collapse args) := by
  unfold Index.collapse
  split
  · exact (toLong _ _).bind fun _ _ => (positive _ _ _).bind fun _ _ => (positive _ _ _).bind fun _ _ =>
      (checked _ _).bind fun _ _ => (checked _ _).bind fun _ _ => (checked _ _).bind fun _ _ =>
      (checked _ _).bind fun _ _ => ok _
  · exact error rfl

theorem along (args : List Value) : FailsByValues (Index.along args) := by
  unfold Index.along
  split
  · exact (toLong _ _).bind fun _ _ => (positive _ _ _).bind fun _ _ => (innerExtent _ _).bind fun _ _ =>
      (checked _ _).bind fun _ _ => ok _
  · exact error rfl

theorem alongBlocks (args : List Value) : FailsByValues (Index.alongBlocks args) := by
  unfold Index.alongBlocks
  split
  · exact (toLong _ _).bind fun _ _ => (positive _ _ _).bind fun _ _ => (positive _ _ _).bind fun _ _ =>
      (checked _ _).bind fun _ _ => ok _
  · exact error rfl

theorem onLattice (args : List Value) : FailsByValues (Index.onLattice args) := by
  unfold Index.onLattice
  split
  · refine (toLong _ _).bind fun _ _ => (toLong _ _).bind fun _ _ => (positive _ _ _).bind fun _ _ =>
      (toLong _ _).bind fun _ _ => ?_
    split
    · exact ok _
    · exact (checked _ _).bind fun _ _ => ok _
  · exact error rfl

theorem builtin {f : Function} (mem : f ∈ Function.builtins) {apply : List Value → Except Error Value}
    (body : f.body = .scalar apply) (args : List Value) : FailsByValues (apply args) :=
  Function.scalar_of_builtin (P := fun apply => FailsByValues (apply args)) (blockOf args) (collapse args) (along args)
    (alongBlocks args) (onLattice args) mem body

/-! ### Accumulators and operators -/

theorem update (a : Accumulator) (args : List Value) : FailsByValues (a.update args) := by
  have number (function : String) : FailsByValues (Accumulator.number function args) := by
    cases args with
    | nil => exact error rfl
    | cons v _ => exact toDouble function v
  cases a with
  | count _ => exact ok _
  | _ => exact (number _).bind fun _ _ => ok _

theorem result (a : Accumulator) : FailsByValues a.result := by
  cases a with
  | count _ | sum _ => exact ok _
  | average _ _ =>
    rw [Accumulator.result]
    split
    · exact error rfl
    · exact ok _
  | minimum current | maximum current =>
    cases current with
    | none => exact error rfl
    | some _ => exact ok _

theorem applyBinary (op : BinaryOp) (l r : Value) : FailsByValues (op.apply l r) := by
  refine (toDouble _ l).bind fun x _ => (toDouble _ r).bind fun y _ => ?_
  cases op with
  | div | mod =>
    dsimp only [BinaryOp.applyNumbers]
    split
    · exact error rfl
    · exact ok _
  | _ => exact ok _

theorem applyUnary (op : UnaryOp) (v : Value) : FailsByValues (op.apply v) := by
  refine (toDouble _ v).bind fun x _ => ?_
  cases op <;> exact ok _

theorem checkArity (f : Function) (given : Nat) : FailsByValues (f.checkArity given) := by
  unfold Function.checkArity
  split
  · exact ok _
  · exact error rfl

end FailsByValues

/-! ## Failed evaluations -/

namespace Eval

variable {α β : Type} {s : Sites} {error : Error}

/-- An evaluation fails from the accumulators before it. -/
def Fails (p : Eval α) (s : Sites) (error : Error) : Prop := (p.run s).1 = .error error

theorem fails_bind {p : Eval α} {f : α → Eval β} (h : Fails (p >>= f) s error) :
    Fails p s error ∨ ∃ x s₁, Ends p s x s₁ ∧ Fails (f x) s₁ error := by
  unfold Fails at h ⊢
  rw [run_bind] at h
  rcases first : p.run s with ⟨e | x, s₁⟩
  · rw [first] at h
    cases h
    exact .inl rfl
  · rw [first] at h
    exact .inr ⟨x, s₁, first, h⟩

theorem fails_lift_bind {x : Except Error α} {f : α → Eval β} (h : Fails (liftM x >>= f) s error) :
    x = .error error ∨ ∃ a, x = .ok a ∧ Fails (f a) s error := by
  cases x with
  | error e =>
    cases h
    exact .inl rfl
  | ok a => exact .inr ⟨a, rfl, h⟩

theorem fails_get_bind {f : Sites → Eval β} : Fails (get >>= f) s error ↔ Fails (f s) s error := Iff.rfl

theorem fails_set_bind {x : Sites} {f : Unit → Eval β} : Fails (set x >>= f) s error ↔ Fails (f ()) x error := Iff.rfl

theorem not_fails_pure {x : β} : ¬Fails (pure x : Eval β) s error := nofun

theorem fails_throw {e : Error} (h : Fails (throw e : Eval β) s error) : error = e := by
  cases h
  rfl

/-- A computation that is lifted fails by itself or by what follows it. -/
theorem Fails.of_lift_bind {P : Prop} {x : Except Error α} {f : α → Eval β} (h : Fails (liftM x >>= f) s error)
    (first : x = .error error → P) (next : ∀ a, x = .ok a → Fails (f a) s error → P) : P := by
  rcases fails_lift_bind h with failed | ⟨a, done, failed⟩
  · exact first failed
  · exact next a done failed

end Eval

/-- The refusal of an aggregate of aggregates. -/
def Error.IsNested (error : Error) : Prop := ∃ f, error = .exec (.nestedAggregate f)

theorem ofValues_of_fails_feed {start : Accumulator} {args : List Value} {s : Sites} {error : Error}
    (h : Fails (feed start last args) s error) : error.isOfValues = true := by
  rcases fails_lift_bind (fails_set_bind.1 (fails_get_bind.1 h)) with failed | ⟨a, -, h⟩
  · exact FailsByValues.update _ args error failed
  cases last with
  | true =>
    rcases fails_lift_bind (fails_set_bind.1 h) with failed | ⟨v, -, h⟩
    · exact FailsByValues.result a error failed
    · exact absurd h not_fails_pure
  | false => exact absurd (fails_set_bind.1 h) not_fails_pure

/-- A function of a registry answers some arguments with an error. -/
def Registry.RefusesWith (r : Registry) (error : Error) : Prop :=
  ∃ f ∈ r.functions, ∃ apply args, f.body = .scalar apply ∧ apply args = .error error

theorem Registry.ofValues_of_builtin {error : Error} (h : builtin.RefusesWith error) : error.isOfValues = true := by
  obtain ⟨f, mem, apply, args, body, failed⟩ := h
  exact FailsByValues.builtin mem body args error failed

/-- What evaluating a tree with certain variables and functions can fail for. -/
inductive Error.Arises (t : SymbolTable) (last : Bool) (names callees : List String) (error : Error) : Prop
  | values (ofValues : error.isOfValues = true)
  | noVariable (name : String) (mem : name ∈ names) (missing : t.value name = .error error)
  | noFunction (name : String) (mem : name ∈ callees) (missing : t.function name = .error error)
  | refused (refuses : t.registry.RefusesWith error)
  | nested (early : last = false) (isNested : error.IsNested)

theorem Error.Arises.mono {names names' callees callees' : List String} {error : Error}
    (h : error.Arises t last names callees) (hn : names ⊆ names') (hc : callees ⊆ callees') :
    error.Arises t last names' callees' := by
  cases h with
  | values ofValues => exact .values ofValues
  | noVariable name mem missing => exact .noVariable name (hn mem) missing
  | noFunction name mem missing => exact .noFunction name (hc mem) missing
  | refused refuses => exact .refused refuses
  | nested early isNested => exact .nested early isNested

namespace Expr

variable {s : Sites} {error : Error}

mutual

/-- Evaluation fails for its values, a name it looks up, a function that refuses, or, before the last row, for an
aggregate of aggregates. -/
theorem arises_of_fails : ∀ (e : Expr) {s : Sites} {error : Error}, Fails (e.eval t last) s error →
    error.Arises t last e.variableNames e.functionNames
  | .literal v, s, error, h => by
    rw [eval] at h
    exact absurd h not_fails_pure
  | .variable name, s, error, h => by
    rw [eval] at h
    exact h.of_lift_bind (.noVariable name List.mem_cons_self) fun v _ failed => absurd failed not_fails_pure
  | .call f args, s, error, h => by
    rw [eval] at h
    refine h.of_lift_bind (.noFunction f List.mem_cons_self) fun fn found h =>
      h.of_lift_bind (fun failed => .values (FailsByValues.checkArity fn _ error failed)) fun _ _ h => ?_
    rcases fails_bind h with failed | ⟨values, s₁, evaluated, failed⟩
    · exact (arises_of_fails_all args failed).mono (List.Subset.refl _) (List.subset_cons_self _ _)
    cases body : fn.body with
    | scalar apply =>
      cases values with
      | none =>
        simp only [Function.call, body] at failed
        exact absurd failed not_fails_pure
      | some vs =>
        simp only [Function.call, body] at failed
        have registered := (Registry.find?_eq_some_iff.1 (SymbolTable.function_eq_ok.1 found)).1
        exact failed.of_lift_bind (fun failed => .refused ⟨fn, registered, apply, vs, body, failed⟩) fun v _ failed =>
          absurd failed not_fails_pure
    | aggregate start =>
      cases values with
      | none =>
        simp only [Function.call, body] at failed
        exact .nested ((none_iff args evaluated).1 rfl).1 ⟨fn.name, fails_throw failed⟩
      | some vs =>
        simp only [Function.call, body] at failed
        exact .values (ofValues_of_fails_feed failed)
  | .binary l op r, s, error, h => by
    rw [eval] at h
    rcases fails_bind h with failed | ⟨left, s₁, -, h⟩
    · exact (arises_of_fails l failed).mono (List.subset_append_left _ _) (List.subset_append_left _ _)
    rcases fails_bind h with failed | ⟨right, s₂, -, h⟩
    · exact (arises_of_fails r failed).mono (List.subset_append_right _ _) (List.subset_append_right _ _)
    cases left with
    | suppressed => exact absurd h not_fails_pure
    | emit x =>
      cases right with
      | suppressed => exact absurd h not_fails_pure
      | emit y =>
        exact h.of_lift_bind (fun failed => .values (FailsByValues.applyBinary op x y error failed)) fun v _ failed =>
          absurd failed not_fails_pure
  | .unary op e, s, error, h => by
    rw [eval] at h
    rcases fails_bind h with failed | ⟨operand, s₁, -, h⟩
    · exact arises_of_fails e failed
    cases operand with
    | suppressed => exact absurd h not_fails_pure
    | emit x =>
      exact h.of_lift_bind (fun failed => .values (FailsByValues.applyUnary op x error failed)) fun v _ failed =>
        absurd failed not_fails_pure

theorem arises_of_fails_all : ∀ (es : List Expr) {s : Sites} {error : Error}, Fails (evalAll t last es) s error →
    error.Arises t last (variableNamesAll es) (functionNamesAll es)
  | [], s, error, h => by
    rw [evalAll] at h
    exact absurd h not_fails_pure
  | e :: rest, s, error, h => by
    rw [evalAll] at h
    rcases fails_bind h with failed | ⟨first, s₁, -, h⟩
    · exact (arises_of_fails e failed).mono (List.subset_append_left _ _) (List.subset_append_left _ _)
    rcases fails_bind h with failed | ⟨others, s₂, -, h⟩
    · exact (arises_of_fails_all rest failed).mono (List.subset_append_right _ _) (List.subset_append_right _ _)
    cases first with
    | suppressed => exact absurd h not_fails_pure
    | emit v => cases others <;> exact absurd h not_fails_pure

end

/-- A row fails by itself, or before the last row for an aggregate of aggregates. -/
theorem ofRow_or_nested (builtin : t.registry = .builtin) (e : Expr) (h : Fails (e.eval t last) s error) :
    error.isOfRow = true ∨ last = false ∧ error.IsNested := by
  cases arises_of_fails e h with
  | values ofValues => exact .inl (Error.isOfRow_of_isOfValues ofValues)
  | noVariable name _ missing =>
    rw [(SymbolTable.value_eq_error.1 missing).2]
    exact .inl rfl
  | noFunction name _ missing =>
    rw [(SymbolTable.function_eq_error.1 missing).2]
    exact .inl rfl
  | refused refuses =>
    rw [builtin] at refuses
    exact .inl (Error.isOfRow_of_isOfValues (Registry.ofValues_of_builtin refuses))
  | nested early isNested => exact .inr ⟨early, isNested⟩

/-! ## Rows -/

variable {e : Expr} {accumulators : List Accumulator} {em : Emission}

theorem evalRow_suppressed_iff (e : Expr) (accumulators : List Accumulator)
    (h : (e.evalRow t last accumulators).1 = .ok em) :
    em = .suppressed ↔ e.isAggregating t.registry = true ∧ last = false := by
  rw [and_comm]
  exact suppressed_iff e (Prod.ext h rfl)

/-- On the last row of a group nothing is refused for being nested. -/
theorem ofRow_of_last (e : Expr) (accumulators : List Accumulator) (builtin : t.registry = .builtin)
    (h : (e.evalRow t true accumulators).1 = .error error) :
    error.isOfRow = true := by
  rcases ofRow_or_nested builtin e h with byRow | ⟨early, -⟩
  · exact byRow
  · cases early

/-- A row by itself emits its value, unless it fails. -/
theorem evalRow_alone (e : Expr) (t : SymbolTable) : (e.evalRow t true []).1 = (e.evaluate t).map .emit := by
  unfold evaluate
  rcases row : (e.evalRow t true []).1 with error | v | _
  · rfl
  · rfl
  · cases ((evalRow_suppressed_iff e [] row).1 rfl).2

theorem ofRow_of_evaluate (builtin : t.registry = .builtin) (h : e.evaluate t = .error error) :
    error.isOfRow = true := by
  refine ofRow_of_last e [] builtin ?_
  rw [evalRow_alone, h]
  rfl

end Expr

namespace GroupEvaluator

/-- A row that succeeds emits exactly if the expression calls no aggregate or the row is the last of its group, whatever
the accumulators have taken in. An expression that is evaluated for a single row is never left without a value. -/
theorem emits_iff_plain_or_last (g : GroupEvaluator) (builtin : t.registry = .builtin) :
    (∀ em, (g.row t).1 = .ok em →
      ((∃ v, em = .emit v) ↔ g.expr.isAggregating .builtin = false ∨ g.lastRow = true) ∧
      (em = .suppressed ↔ g.expr.isAggregating .builtin = true ∧ g.lastRow = false)) ∧
    g.expr.evaluate t ≠ .error (.exec .noValue) := by
  refine ⟨fun em done => ?_, fun failed => ?_⟩
  · have waits := Expr.evalRow_suppressed_iff g.expr g.accumulators done
    rw [builtin] at waits
    refine ⟨?_, waits⟩
    cases em with
    | emit v =>
      have given : ¬(g.expr.isAggregating .builtin = true ∧ g.lastRow = false) := fun both => nomatch waits.2 both
      rw [not_and_or, Bool.not_eq_true, Bool.not_eq_false] at given
      exact ⟨fun _ => given, fun _ => ⟨v, rfl⟩⟩
    | suppressed =>
      obtain ⟨aggregating, early⟩ := waits.1 rfl
      simp [aggregating, early]
  · cases Expr.ofRow_of_evaluate builtin failed

/-- Twice a sum that has taken in a row before: it waits for the last row, and then it is 6. -/
theorem emits_iff_plain_or_last_twiceSum :
    let t : SymbolTable := ⟨.builtin, [("v", .double (Binary64.ofInt 2))], 11⟩
    let e : Expr := .binary (.call "oph_sum" [.variable "v"]) .mul (.literal (.long 2))
    let begun : GroupEvaluator := ⟨e, [.sum (Binary64.ofInt 1)], false⟩
    (begun.row t).1 = .ok .suppressed ∧ e.isAggregating .builtin = true ∧
      ((begun.setLastRow true).row t).1 = .ok (.emit (.double (Binary64.ofInt 6))) ∧
      e.evaluate t ≠ .error (.exec .noValue) := by
  intro t e begun
  have early : (begun.row t).1 = .ok .suppressed := by decide +kernel
  have last : ((begun.setLastRow true).row t).1 = .ok (.emit (.double (Binary64.ofInt 6))) := by decide +kernel
  obtain ⟨waits, value⟩ := emits_iff_plain_or_last begun (t := t) rfl
  exact ⟨early, ((waits _ early).2.1 rfl).1, last, value⟩

end GroupEvaluator

end FragmentEngine
