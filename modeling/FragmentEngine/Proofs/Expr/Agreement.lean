import FragmentEngine.Expr.Evaluator
/-!
# What an evaluation depends on

Evaluation looks at a symbol table only for the functions of its registry and for the variables that occur in
the expression. Tables that agree there give the same value or the same error.
-/

namespace FragmentEngine

namespace SymbolTable

/-- Two tables have the same functions and the same values for some names. -/
structure Agrees (names : List String) (t u : SymbolTable) : Prop where
  registry : t.registry = u.registry
  value : ∀ name ∈ names, t.value name = u.value name

theorem Agrees.mono {names others : List String} {t u : SymbolTable} (h : Agrees names t u)
    (sub : ∀ name ∈ others, name ∈ names) : Agrees others t u :=
  ⟨h.registry, fun name mem => h.value name (sub name mem)⟩

end SymbolTable

namespace Expr

open SymbolTable

mutual

theorem eval_congr {t u : SymbolTable} (last : Bool) :
    ∀ e : Expr, Agrees e.variableNames t u → e.eval t last = e.eval u last
  | .literal v, _ => by simp only [eval]
  | .variable name, h => by simp only [eval, h.value name (by simp [variableNames])]
  | .call f args, h => by
    have args := evalAll_congr last args h
    simp only [eval, SymbolTable.function, h.registry, args]
  | .binary l op r, h => by
    have left := eval_congr last l (h.mono fun name mem => by simp [variableNames, mem])
    have right := eval_congr last r (h.mono fun name mem => by simp [variableNames, mem])
    simp only [eval, left, right]
  | .unary op e, h => by
    have operand := eval_congr last e h
    simp only [eval, operand]

theorem evalAll_congr {t u : SymbolTable} (last : Bool) :
    ∀ es : List Expr, Agrees (variableNamesAll es) t u → evalAll t last es = evalAll u last es
  | [], _ => by simp only [evalAll]
  | e :: rest, h => by
    have first := eval_congr last e (h.mono fun name mem => by simp [variableNamesAll, mem])
    have others := evalAll_congr last rest (h.mono fun name mem => by simp [variableNamesAll, mem])
    simp only [evalAll, first, others]

end

variable {e : Expr} {t u : SymbolTable}

/-- What a row gives, and what it leaves of the accumulators, depends on the variables of the expression only. -/
theorem evalRow_congr (h : Agrees e.variables t u) (last : Bool) (accumulators : List Accumulator) :
    e.evalRow t last accumulators = e.evalRow u last accumulators := by
  have same := eval_congr last e (h.mono fun name mem => mem_distinct.2 mem)
  simp only [evalRow, same]

/-- A single row's value depends on the variables of the expression only. -/
theorem evaluate_congr (h : Agrees e.variables t u) : e.evaluate t = e.evaluate u := by
  simp only [evaluate, evalRow_congr h]

end Expr

end FragmentEngine
