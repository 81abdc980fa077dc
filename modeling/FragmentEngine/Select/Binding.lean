import FragmentEngine.Expr.Evaluator
import FragmentEngine.Select.Source
/-!
# Bindings

What the variables of an expression stand for: a column of a source, or a positional argument. For each
selected entry a fresh symbol table holds their values.
-/

namespace FragmentEngine

inductive Binding where
  | field (source column : Nat)
  | argument (v : Value)
  deriving DecidableEq

/-- The source and column of a field name, which is qualified unless there is one source only. -/
def resolveField (name : String) (sources : List Source) : Except Error (Nat × Nat) :=
  match Text.splitLast '.' name.toList with
  | some (qualifier, field) =>
    let qualifier := String.ofList qualifier
    let field := String.ofList field
    match sources.zipIdx.find? fun (s, _) => s.answersTo qualifier with
    | some (s, i) => do return (i, ← s.fragment.column field)
    | none => .error (.exec (.fieldNotFound field qualifier))
  | none =>
    match sources with
    | [only] => do return (0, ← only.fragment.column name)
    | [] => .error (.exec (.noInputFor name))
    | _ => .error (.exec (.ambiguousField name sources.length))

/-- What a variable stands for. -/
def resolveVariable (name : String) (sources : List Source) (args : List Argument) : Except Error Binding :=
  match Argument.placeholder? name.toList with
  | some position => do return .argument (← Argument.valueAt args position)
  | none => do
    let (source, column) ← resolveField name sources
    return .field source column

/-- The variables of an expression with what they stand for. -/
structure RowBinder where
  bindings : List (String × Binding)
  deriving DecidableEq

namespace RowBinder

/-- Resolves the variables of an expression. -/
def bind (e : Expr) (sources : List Source) (args : List Argument) : Except Error RowBinder := do
  let bindings ← e.variables.mapM fun name => do return (name, ← resolveVariable name sources args)
  return ⟨bindings⟩

/-- The value of a binding for entry `k`. -/
def value (sources : List Source) (selection : Selection) (k : Nat) : Binding → Except Error Value
  | .argument v => .ok v
  | .field source column =>
    match sources[source]? with
    | some s => s.fragment.value (selection.row source k) column
    | none => .error (.exec .noSources)

/-- The symbol table for entry `k`. -/
def table (b : RowBinder) (context : Context) (sources : List Source) (selection : Selection) (k : Nat) :
    Except Error SymbolTable :=
  b.bindings.foldlM
    (fun t (name, binding) => do t.add name (← value sources selection k binding))
    (SymbolTable.new context.registry (b.bindings.length + context.headroom))

end RowBinder

end FragmentEngine
