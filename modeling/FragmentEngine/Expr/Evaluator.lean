import FragmentEngine.Expr.SymbolTable
/-!
# Evaluation

The value of an expression for one row, and for the rows of a group. Operators work on doubles; arithmetic
yields a double, `MOD`, comparison and logic a long. Each call of an aggregate keeps an accumulator, found by
its place in the order of evaluation. An expression with an aggregate emits nothing until the last row of a
group.
-/

namespace FragmentEngine

/-- What evaluating one row gives. -/
inductive Emission where
  | emit (v : Value)
  /-- The row was absorbed by an aggregate. -/
  | suppressed
  deriving DecidableEq

/-! ## Operators -/

/-- The smallest and greatest operands of `MOD`; others are clamped to them. -/
def modulusRange : Int × Int := (-2147483648, 2147483647)

def BinaryOp.applyNumbers (op : BinaryOp) (l r : Binary64) : Except Error Value :=
  match op with
  | .add => .ok (.double (l.add r))
  | .sub => .ok (.double (l.sub r))
  | .mul => .ok (.double (l.mul r))
  | .div => if r.isZero then .error (.exec .divisionByZero) else .ok (.double (l.div r))
  | .mod =>
    let a := l.truncate modulusRange.1 modulusRange.2
    let b := r.truncate modulusRange.1 modulusRange.2
    if b = 0 then .error (.exec .divisionByZero) else .ok (.long (Int64.ofInt (a.tmod b)))
  | .eq => .ok (Value.ofBool (l.eq r))
  | .ne => .ok (Value.ofBool (!l.eq r))
  | .lt => .ok (Value.ofBool (l.lt r))
  | .gt => .ok (Value.ofBool (r.lt l))
  | .le => .ok (Value.ofBool (l.le r))
  | .ge => .ok (Value.ofBool (r.le l))
  | .and => .ok (Value.ofBool (!l.isZero && !r.isZero))
  | .or => .ok (Value.ofBool (!l.isZero || !r.isZero))

/-- The value of an operation; the left operand is refused first. -/
def BinaryOp.apply (op : BinaryOp) (left right : Value) : Except Error Value := do
  let context := s!"operator {op.symbol}"
  let l ← left.toDouble context
  let r ← right.toDouble context
  op.applyNumbers l r

def UnaryOp.apply (op : UnaryOp) (operand : Value) : Except Error Value := do
  let x ← operand.toDouble s!"operator {op.symbol}"
  match op with
  | .not => return Value.ofBool x.isZero
  | .neg => return .double x.neg

/-! ## One row -/

/-- The accumulators of a group and the number of aggregate calls met in the row so far. -/
structure Sites where
  accumulators : List Accumulator
  next : Nat
  deriving DecidableEq

/-- The accumulators with the one at `site` put in place. -/
def Sites.put (site : Nat) (a : Accumulator) (accumulators : List Accumulator) : List Accumulator :=
  if site < accumulators.length then accumulators.set site a else accumulators ++ [a]

/-- Evaluation keeps what the accumulators have taken in even if it fails later. -/
abbrev Eval := ExceptT Error (StateM Sites)

/-- Feeds one row to the accumulator of an aggregate call and, on the last row, takes its result. -/
def feed (start : Accumulator) (last : Bool) (args : List Value) : Eval Emission := do
  let sites ← get
  let site := sites.next
  set { sites with next := site + 1 }
  let a ← ((sites.accumulators[site]?).getD start).update args
  if last then
    set { accumulators := Sites.put site a.fresh sites.accumulators, next := site + 1 : Sites }
    return .emit (← a.result)
  else
    set { accumulators := Sites.put site a sites.accumulators, next := site + 1 : Sites }
    return .suppressed

/-- A call with evaluated arguments, absent if one of them was suppressed. -/
def Function.call (f : Function) (last : Bool) : Option (List Value) → Eval Emission
  | some args =>
    match f.body with
    | .scalar apply => return .emit (← apply args)
    | .aggregate start => feed start last args
  | none =>
    match f.body with
    | .scalar _ => return .suppressed
    | .aggregate _ => throw (.exec (.nestedAggregate f.name))

mutual

/-- Evaluates a tree, left to right. -/
def Expr.eval (table : SymbolTable) (last : Bool) : Expr → Eval Emission
  | .literal v => return .emit v
  | .variable name => return .emit (← table.value name)
  | .call function args => do
    let f ← table.function function
    f.checkArity args.length
    let values ← Expr.evalAll table last args
    f.call last values
  | .binary left op right => do
    let l ← Expr.eval table last left
    let r ← Expr.eval table last right
    match l, r with
    | .emit l, .emit r => return .emit (← op.apply l r)
    | _, _ => return .suppressed
  | .unary op operand => do
    match ← Expr.eval table last operand with
    | .emit v => return .emit (← op.apply v)
    | .suppressed => return .suppressed

/-- Evaluates arguments; absent if one of them is suppressed. -/
def Expr.evalAll (table : SymbolTable) (last : Bool) : List Expr → Eval (Option (List Value))
  | [] => return some []
  | e :: rest => do
    let first ← Expr.eval table last e
    let others ← Expr.evalAll table last rest
    match first, others with
    | .emit v, some vs => return some (v :: vs)
    | _, _ => return none

end

/-- The emission of one row and the accumulators after it. -/
def Expr.evalRow (e : Expr) (table : SymbolTable) (last : Bool) (accumulators : List Accumulator) :
    Except Error Emission × List Accumulator :=
  let (result, sites) := (e.eval table last).run.run ⟨accumulators, 0⟩
  (result, sites.accumulators)

/-- The value of an expression for a single row, which is a group by itself. -/
def Expr.evaluate (e : Expr) (table : SymbolTable) : Except Error Value :=
  match (e.evalRow table true []).1 with
  | .error error => .error error
  | .ok (.emit v) => .ok v
  | .ok .suppressed => .error (.exec .noValue)

/-- Whether an aggregate is called anywhere in the tree. -/
def Expr.isAggregating (e : Expr) (registry : Registry) : Bool := registry.aggregates e.functionNames

/-! ## Groups -/

/-- The evaluation of one expression over the rows of successive groups. -/
structure GroupEvaluator where
  expr : Expr
  accumulators : List Accumulator
  /-- Whether the next row is the last of its group. -/
  lastRow : Bool

namespace GroupEvaluator

def new (e : Expr) : GroupEvaluator := ⟨e, [], false⟩

/-- Forgets the rows so far. -/
def boundary (g : GroupEvaluator) : GroupEvaluator := { g with accumulators := [], lastRow := false }

def setLastRow (g : GroupEvaluator) (last : Bool) : GroupEvaluator := { g with lastRow := last }

/-- Evaluates the row bound in the table. -/
def row (g : GroupEvaluator) (table : SymbolTable) : Except Error Emission × GroupEvaluator :=
  let (result, accumulators) := g.expr.evalRow table g.lastRow g.accumulators
  (result, { g with accumulators := accumulators })

end GroupEvaluator

end FragmentEngine
