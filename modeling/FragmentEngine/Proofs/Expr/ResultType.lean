import FragmentEngine.Proofs.Expr.RollUp
/-!
# Types of results

An operation or a call of a builtin function has values of one type only, which the expression alone fixes.
-/

namespace FragmentEngine

/-! ## Functions -/

/-- Every value of a computation is a long. -/
def GivesLong (x : Except Error Value) : Prop := ∀ v, x = .ok v → v.fieldType = .long

namespace GivesLong

variable {α : Type}

theorem error (e : Error) : GivesLong (.error e) := by
  intro v h
  cases h

theorem long (n : Long) : GivesLong (.ok (.long n)) := by
  intro v h
  cases h
  rfl

theorem bind {x : Except Error α} {f : α → Except Error Value} (h : ∀ a, GivesLong (f a)) : GivesLong (x >>= f) := by
  intro v done
  obtain ⟨a, -, done⟩ := Outcome.bind_eq_ok.1 done
  exact h a v done

theorem blockOf (args : List Value) : GivesLong (Index.blockOf args) := by
  unfold Index.blockOf
  split
  · exact bind fun _ => bind fun _ => bind fun _ => long _
  · exact error _

theorem collapse (args : List Value) : GivesLong (Index.collapse args) := by
  unfold Index.collapse
  split
  · exact bind fun _ => bind fun _ => bind fun _ => bind fun _ => bind fun _ => bind fun _ => bind fun _ => long _
  · exact error _

theorem along (args : List Value) : GivesLong (Index.along args) := by
  unfold Index.along
  split
  · exact bind fun _ => bind fun _ => bind fun _ => bind fun _ => long _
  · exact error _

theorem alongBlocks (args : List Value) : GivesLong (Index.alongBlocks args) := by
  unfold Index.alongBlocks
  split
  · exact bind fun _ => bind fun _ => bind fun _ => bind fun _ => long _
  · exact error _

theorem onLattice (args : List Value) : GivesLong (Index.onLattice args) := by
  unfold Index.onLattice
  split
  · refine bind fun _ => bind fun _ => bind fun _ => bind fun _ => ?_
    split
    · exact long _
    · exact bind fun _ => long _
  · exact error _

/-- The builtin functions with a value for each row compute longs. -/
theorem builtin {f : Function} (mem : f ∈ Function.builtins) {apply : List Value → Except Error Value}
    (body : f.body = .scalar apply) (args : List Value) : GivesLong (apply args) :=
  Function.scalar_of_builtin (P := fun apply => GivesLong (apply args)) (blockOf args) (collapse args) (along args)
    (alongBlocks args) (onLattice args) mem body

end GivesLong

namespace Accumulator

/-- The type of an accumulator's results. -/
def resultType : Accumulator → FieldType
  | .count _ => .long
  | _ => .real

theorem resultType_fresh (a : Accumulator) : a.fresh.resultType = a.resultType := by cases a <;> rfl

theorem resultType_of_update {a b : Accumulator} {args : List Value} (h : a.update args = .ok b) :
    b.resultType = a.resultType := by
  rw [← resultType_fresh b, fresh_of_update h, resultType_fresh]

theorem fieldType_of_result {a : Accumulator} {v : Value} (h : a.result = .ok v) : v.fieldType = a.resultType := by
  cases a with
  | count rows => cases h; rfl
  | sum total => cases h; rfl
  | average total rows =>
    rw [result] at h
    split at h
    · cases h
    · cases h; rfl
  | minimum current => cases current <;> cases h; rfl
  | maximum current => cases current <;> cases h; rfl

end Accumulator

theorem AggregateCall.resultType_of_after {call : AggregateCall} {rows : List SymbolTable} {a : Accumulator}
    (h : call.after rows = .ok a) : a.resultType = call.start.resultType := by
  unfold AggregateCall.after at h
  generalize call.start = start at h
  induction rows generalizing start with
  | nil => cases h; rfl
  | cons row rows ih =>
    rw [List.foldlM_cons] at h
    obtain ⟨b, step, h⟩ := Outcome.bind_eq_ok.1 h
    obtain ⟨args, -, step⟩ := Outcome.bind_eq_ok.1 step
    rw [ih b h, Accumulator.resultType_of_update step]

/-! ## Operators -/

def BinaryOp.resultType (op : BinaryOp) : FieldType := if op.isArithmetic then .real else .long

def UnaryOp.resultType : UnaryOp → FieldType
  | .not => .long
  | .neg => .real

theorem BinaryOp.fieldType_of_apply {op : BinaryOp} {l r v : Value} (h : op.apply l r = .ok v) :
    v.fieldType = op.resultType := by
  obtain ⟨x, -, h⟩ := Outcome.bind_eq_ok.1 h
  obtain ⟨y, -, h⟩ := Outcome.bind_eq_ok.1 h
  unfold applyNumbers at h
  cases op with
  | div =>
    dsimp only at h
    split at h <;> cases h
    rfl
  | mod =>
    dsimp only at h
    split at h <;> cases h
    rfl
  | _ => cases h; rfl

theorem UnaryOp.fieldType_of_apply {op : UnaryOp} {x v : Value} (h : op.apply x = .ok v) :
    v.fieldType = op.resultType := by
  obtain ⟨y, -, h⟩ := Outcome.bind_eq_ok.1 h
  cases op <;> cases h <;> rfl

/-! ## Expressions -/

/-- The type of the values of an expression; that of a variable is not known. -/
def Expr.resultType (registry : Registry) : Expr → Option FieldType
  | .literal v => some v.fieldType
  | .variable _ => none
  | .call f _ =>
    match (registry.find? f).map Function.body with
    | some (.aggregate start) => some start.resultType
    | _ => some .long
  | .binary _ op _ => some op.resultType
  | .unary op _ => some op.resultType

/-- Only the type of a variable is not known. -/
theorem Expr.typed_or_variable (registry : Registry) (e : Expr) :
    (∃ type, e.resultType registry = some type) ∨ ∃ name, e = .variable name := by
  cases e with
  | «variable» name => exact .inr ⟨name, rfl⟩
  | call f _ =>
    refine .inl ?_
    rw [resultType]
    split <;> exact ⟨_, rfl⟩
  | _ => exact .inl ⟨_, rfl⟩

theorem Expr.resultType_isSome {registry : Registry} {e : Expr} (aggregating : e.isAggregating registry = true) :
    ∃ type, e.resultType registry = some type := by
  rcases e.typed_or_variable registry with known | ⟨name, rfl⟩
  · exact known
  · cases aggregating

theorem Expr.fieldType_of_rollUp {rows : List SymbolTable} {t : SymbolTable} (builtin : t.registry = .builtin)
    {e : Expr} {v : Value} {type : FieldType} (known : e.resultType t.registry = some type)
    (h : e.rollUp rows t = .ok v) : v.fieldType = type := by
  cases e with
  | literal w =>
    cases h
    cases known
    rfl
  | «variable» _ => cases known
  | call f args =>
    obtain ⟨fn, found, h⟩ := Outcome.bind_eq_ok.1 h
    obtain ⟨_, -, h⟩ := Outcome.bind_eq_ok.1 h
    rw [SymbolTable.function_eq_ok] at found
    rw [resultType, found, Option.map_some] at known
    cases body : fn.body with
    | scalar apply =>
      simp only [body] at known h
      obtain ⟨vs, -, h⟩ := Outcome.bind_eq_ok.1 h
      cases known
      rw [builtin] at found
      exact GivesLong.builtin (Registry.find?_eq_some_iff.1 found).1 body vs v h
    | aggregate start =>
      simp only [body] at known h
      obtain ⟨a, after, h⟩ := Outcome.bind_eq_ok.1 h
      cases known
      rw [Accumulator.fieldType_of_result h, AggregateCall.resultType_of_after after]
  | binary l op r =>
    obtain ⟨x, -, h⟩ := Outcome.bind_eq_ok.1 h
    obtain ⟨y, -, h⟩ := Outcome.bind_eq_ok.1 h
    cases known
    exact BinaryOp.fieldType_of_apply h
  | unary op e =>
    obtain ⟨x, -, h⟩ := Outcome.bind_eq_ok.1 h
    cases known
    exact UnaryOp.fieldType_of_apply h

end FragmentEngine
