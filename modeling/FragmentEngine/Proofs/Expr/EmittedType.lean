import FragmentEngine.Proofs.Expr.Emission
import FragmentEngine.Proofs.Expr.ResultType
/-!
# Types of emissions

Every accumulator belongs to one aggregate call, and its results have the type of that call. Evaluation keeps it so,
whatever the tables and whether it succeeds or fails, so that an operation or a call of a builtin function emits values
of one type only.
-/

namespace FragmentEngine

open Eval

/-! ## Aggregate calls and their accumulators -/

namespace Expr

mutual

/-- The types of the results of the aggregate calls, in the order in which evaluation comes to their accumulators. -/
def siteTypes (registry : Registry) : Expr → List FieldType
  | .literal _ | .variable _ => []
  | .call f args =>
    siteTypesAll registry args ++
      match (registry.find? f).map Function.body with
      | some (.aggregate start) => [start.resultType]
      | _ => []
  | .binary l _ r => siteTypes registry l ++ siteTypes registry r
  | .unary _ e => siteTypes registry e

def siteTypesAll (registry : Registry) : List Expr → List FieldType
  | [] => []
  | e :: rest => siteTypes registry e ++ siteTypesAll registry rest

end

end Expr

/-- Every accumulator has results of the type that is listed at its place. -/
def Fit (types : List FieldType) (accumulators : List Accumulator) : Prop :=
  ∀ (i : Nat) (a : Accumulator), accumulators[i]? = some a → types[i]? = some a.resultType

namespace Fit

variable {types : List FieldType} {accumulators : List Accumulator}

theorem nil (types : List FieldType) : Fit types [] := nofun

theorem put {n : Nat} {a : Accumulator} (h : Fit types accumulators) (room : n ≤ accumulators.length)
    (here : types[n]? = some a.resultType) : Fit types (Sites.put n a accumulators) := by
  intro i b there
  rw [Sites.getElem?_put room] at there
  split at there
  next same =>
    cases there
    rw [same, here]
  next other => exact h i b there

/-- An accumulator that is there, or one that starts, has results of the type of its place. -/
theorem getD {n : Nat} {start : Accumulator} (h : Fit types accumulators) (here : types[n]? = some start.resultType) :
    ((accumulators[n]?).getD start).resultType = start.resultType := by
  cases found : accumulators[n]? with
  | none => rfl
  | some a => exact Option.some.inj ((h n a found).symm.trans here)

end Fit

namespace Eval

variable {α β : Type} {types own more : List FieldType}

/-- An evaluation that comes to accumulators of certain types keeps all accumulators fit, even if it fails. If it
succeeds it has come to all of them, and its outcome has a property. -/
def Keeps (types own : List FieldType) (p : Eval α) (post : α → Prop) : Prop :=
  ∀ s : Sites, Fit types s.accumulators → s.next ≤ s.accumulators.length → own <+: types.drop s.next →
    Fit types (p.run s).2.accumulators ∧
    ∀ a s', Ends p s a s' → s'.next = s.next + own.length ∧ s'.next ≤ s'.accumulators.length ∧ post a

namespace Keeps

variable {p : Eval α} {f : α → Eval β} {post : α → Prop} {post' : β → Prop}

theorem pure {a : α} (h : post a) : Keeps types [] (pure a) post := by
  intro s fit room _
  refine ⟨fit, fun b s' done => ?_⟩
  obtain ⟨rfl, rfl⟩ := ends_pure.1 done
  exact ⟨rfl, room, h⟩

theorem throw (error : Error) : Keeps types own (throw error : Eval α) post :=
  fun _ fit _ _ => ⟨fit, fun _ _ done => absurd done (not_ends_throw error)⟩

theorem lift_bind {x : Except Error α} (next : ∀ a, x = .ok a → Keeps types own (f a) post') :
    Keeps types own (liftM x >>= f) post' := by
  intro s fit room ahead
  cases x with
  | error e => exact ⟨fit, fun _ _ done => nomatch (ends_lift_bind.1 done)⟩
  | ok a => exact next a rfl s fit room ahead

theorem bind (h : Keeps types own p post) (next : ∀ a, post a → Keeps types more (f a) post') :
    Keeps types (own ++ more) (p >>= f) post' := by
  rintro s fit room ⟨beyond, ahead⟩
  rw [List.append_assoc] at ahead
  obtain ⟨kept, reached⟩ := h s fit room ⟨_, ahead⟩
  unfold Ends
  rw [run_bind]
  rcases first : p.run s with ⟨e | a, s₁⟩
  · rw [first] at kept
    exact ⟨kept, nofun⟩
  · rw [first] at kept
    obtain ⟨come, room₁, holds⟩ := reached a s₁ first
    have ahead₁ : more <+: types.drop s₁.next := by
      refine ⟨beyond, ?_⟩
      rw [come, ← List.drop_drop, ← ahead, List.drop_left]
    obtain ⟨kept', reached'⟩ := next a holds s₁ kept room₁ ahead₁
    refine ⟨kept', fun b s' done => ?_⟩
    obtain ⟨come', room', holds'⟩ := reached' b s' done
    rw [come', come, List.length_append, Nat.add_assoc]
    exact ⟨rfl, by omega, holds'⟩

/-- What comes to no accumulators may follow. -/
theorem bind_last (h : Keeps types own p post) (next : ∀ a, post a → Keeps types [] (f a) post') :
    Keeps types own (p >>= f) post' := by
  have whole := h.bind next
  rwa [List.append_nil] at whole

theorem mono {weaker : α → Prop} (h : Keeps types own p post) (weaken : ∀ a, post a → weaker a) :
    Keeps types own p weaker := by
  intro s fit room ahead
  obtain ⟨kept, reached⟩ := h s fit room ahead
  refine ⟨kept, fun a s' done => ?_⟩
  obtain ⟨come, room', holds⟩ := reached a s' done
  exact ⟨come, room', weaken a holds⟩

end Keeps

end Eval

/-- The value of an emission, if there is one, has a given type. -/
def Emission.HasType (em : Emission) (type : FieldType) : Prop := ∀ v, em = .emit v → v.fieldType = type

/-- What a call of an aggregate leaves, whether it succeeds or fails. -/
theorem run_feed (start : Accumulator) (last : Bool) (args : List Value) (s : Sites) :
    (feed start last args).run s =
      match ((s.accumulators[s.next]?).getD start).update args with
      | .error error => (.error error, { s with next := s.next + 1 })
      | .ok a => (if last then a.result.map .emit else .ok .suppressed,
          ⟨Sites.put s.next (if last then a.fresh else a) s.accumulators, s.next + 1⟩) := by
  have get (s : Sites) : (get : Eval Sites).run s = (.ok s, s) := rfl
  have set (s s' : Sites) : (set s' : Eval Unit).run s = (.ok (), s') := rfl
  simp only [feed, run_bind, get, set, Steady.lift _ _]
  cases ((s.accumulators[s.next]?).getD start).update args with
  | error _ => rfl
  | ok a =>
    cases last with
    | false => rfl
    | true =>
      simp only [if_true, run_bind, set, Steady.lift _ _]
      cases a.result <;> rfl

theorem keeps_feed (types : List FieldType) (start : Accumulator) (last : Bool) (args : List Value) :
    Keeps types [start.resultType] (feed start last args) (·.HasType start.resultType) := by
  rintro s fit room ⟨beyond, ahead⟩
  have here : types[s.next]? = some start.resultType := by
    rw [← List.head?_drop, ← ahead]
    rfl
  unfold Ends
  rw [run_feed]
  cases updated : ((s.accumulators[s.next]?).getD start).update args with
  | error _ => exact ⟨fit, nofun⟩
  | ok a =>
    have type : a.resultType = start.resultType := (Accumulator.resultType_of_update updated).trans (fit.getD here)
    cases last with
    | false =>
      refine ⟨fit.put room (type ▸ here), fun em s' done => ?_⟩
      cases done
      exact ⟨rfl, Sites.length_put room a, nofun⟩
    | true =>
      have rolledUp := (Accumulator.resultType_fresh a).trans type
      refine ⟨fit.put room (rolledUp ▸ here), fun em s' done => ?_⟩
      cases result : a.result with
      | error _ =>
        simp only [result] at done
        cases done
      | ok v =>
        simp only [result] at done
        cases done
        refine ⟨rfl, Sites.length_put room _, ?_⟩
        rintro _ ⟨⟩
        exact (Accumulator.fieldType_of_result result).trans type

namespace Expr

variable {t : SymbolTable} {last : Bool} {types : List FieldType}

mutual

/-- Evaluation keeps the accumulators fit, and gives values of the type of the expression. -/
theorem keeps_eval (builtin : t.registry = .builtin) : ∀ e : Expr,
    Keeps types (e.siteTypes t.registry) (e.eval t last) fun em =>
      ∀ type, e.resultType t.registry = some type → em.HasType type
  | .literal v => by
    rw [eval, siteTypes]
    refine .pure fun type known w same => ?_
    cases same
    exact Option.some.inj known
  | .variable name => by
    rw [eval, siteTypes]
    exact .lift_bind fun v _ => .pure nofun
  | .call f args => by
    rw [eval, siteTypes]
    refine .lift_bind fun fn found => .lift_bind fun _ _ => ?_
    rw [SymbolTable.function_eq_ok] at found
    refine (keeps_evalAll builtin args).bind fun values _ => ?_
    rw [resultType, found, Option.map_some]
    cases body : fn.body with
    | scalar apply =>
      cases values with
      | none =>
        simp only [Function.call, body]
        exact .pure nofun
      | some vs =>
        simp only [Function.call, body]
        refine .lift_bind fun v applied => .pure fun type known w same => ?_
        cases same
        cases known
        rw [builtin] at found
        exact GivesLong.builtin (Registry.find?_eq_some_iff.1 found).1 body vs v applied
    | aggregate start =>
      cases values with
      | none =>
        simp only [Function.call, body]
        exact .throw _
      | some vs =>
        simp only [Function.call, body]
        refine (keeps_feed types start last vs).mono fun em typed type known => ?_
        cases known
        exact typed
  | .binary l op r => by
    rw [eval, siteTypes]
    refine (keeps_eval builtin l).bind fun left _ => (keeps_eval builtin r).bind_last fun right _ => ?_
    cases left with
    | suppressed => exact .pure nofun
    | emit x =>
      cases right with
      | suppressed => exact .pure nofun
      | emit y =>
        refine .lift_bind fun v applied => .pure fun type known w same => ?_
        cases same
        cases known
        exact BinaryOp.fieldType_of_apply applied
  | .unary op e => by
    rw [eval, siteTypes]
    refine (keeps_eval builtin e).bind_last fun operand _ => ?_
    cases operand with
    | suppressed => exact .pure nofun
    | emit x =>
      refine .lift_bind fun v applied => .pure fun type known w same => ?_
      cases same
      cases known
      exact UnaryOp.fieldType_of_apply applied

theorem keeps_evalAll (builtin : t.registry = .builtin) : ∀ es : List Expr,
    Keeps types (siteTypesAll t.registry es) (evalAll t last es) fun _ => True
  | [] => by
    rw [evalAll, siteTypesAll]
    exact .pure trivial
  | e :: rest => by
    rw [evalAll, siteTypesAll]
    refine (keeps_eval builtin e).bind fun first _ => (keeps_evalAll builtin rest).bind_last fun others _ => ?_
    cases first with
    | suppressed => exact .pure trivial
    | emit v => cases others <;> exact .pure trivial

end

variable {e : Expr}

/-- A row keeps the accumulators fit, and emits a value of the type of the expression. -/
theorem fit_evalRow (builtin : t.registry = .builtin) (last : Bool) {accumulators : List Accumulator}
    (fit : Fit (e.siteTypes .builtin) accumulators) :
    Fit (e.siteTypes .builtin) (e.evalRow t last accumulators).2 ∧
    ∀ em, (e.evalRow t last accumulators).1 = .ok em → ∀ type, e.resultType .builtin = some type → em.HasType type := by
  have kept : Keeps (e.siteTypes .builtin) (e.siteTypes t.registry) (e.eval t last) _ := keeps_eval builtin e
  rw [builtin] at kept
  obtain ⟨fit', reached⟩ := kept ⟨accumulators, 0⟩ fit (Nat.zero_le _) (List.prefix_refl _)
  exact ⟨fit', fun em done => (reached em _ (Prod.ext done rfl)).2.2⟩

/-- An expression that is neither a literal nor a variable. -/
def isOperation : Expr → Bool
  | .literal _ | .variable _ => false
  | .call _ _ | .binary _ _ _ | .unary _ _ => true

theorem resultType_of_isOperation (registry : Registry) (operation : e.isOperation = true) :
    ∃ type, e.resultType registry = some type := by
  rcases e.typed_or_variable registry with known | ⟨name, rfl⟩
  · exact known
  · cases operation

end Expr

/-! ## Evaluators of groups -/

namespace GroupEvaluator

/-- The evaluators of an expression over rows with certain functions: a new one, and those that the operations make of
others. -/
inductive Reached (registry : Registry) (e : Expr) : GroupEvaluator → Prop
  | new : Reached registry e (new e)
  | boundary {g : GroupEvaluator} (h : Reached registry e g) : Reached registry e g.boundary
  | setLastRow {g : GroupEvaluator} (h : Reached registry e g) (last : Bool) : Reached registry e (g.setLastRow last)
  | row {g : GroupEvaluator} (h : Reached registry e g) {t : SymbolTable} (same : t.registry = registry) :
      Reached registry e (g.row t).2

variable {e : Expr} {g : GroupEvaluator} {t : SymbolTable} {v : Value} {type : FieldType}

theorem Reached.fit (h : Reached .builtin e g) : g.expr = e ∧ Fit (e.siteTypes .builtin) g.accumulators := by
  induction h with
  | new => exact ⟨rfl, .nil _⟩
  | boundary _ ih => exact ⟨ih.1, .nil _⟩
  | setLastRow _ _ ih => exact ih
  | row _ same ih =>
    obtain ⟨rfl, fit⟩ := ih
    exact ⟨rfl, (Expr.fit_evalRow same _ fit).1⟩

theorem Reached.fieldType_of_row (h : Reached .builtin e g) (builtin : t.registry = .builtin)
    (known : e.resultType .builtin = some type) (done : (g.row t).1 = .ok (.emit v)) : v.fieldType = type := by
  obtain ⟨rfl, fit⟩ := h.fit
  exact (Expr.fit_evalRow builtin _ fit).2 _ done type known v rfl

end GroupEvaluator

theorem Expr.fieldType_of_evaluate {e : Expr} {t : SymbolTable} {v : Value} {type : FieldType}
    (builtin : t.registry = .builtin) (known : e.resultType .builtin = some type) (h : e.evaluate t = .ok v) :
    v.fieldType = type := by
  have alone : (e.evalRow t true []).1 = .ok (.emit v) := by
    rw [evalRow_alone, h]
    rfl
  exact (fit_evalRow builtin _ (.nil _)).2 _ alone type known v rfl

end FragmentEngine
