import FragmentEngine.Proofs.Expr.EmittedType
import FragmentEngine.Proofs.Fragment.Cell
import FragmentEngine.Proofs.Select.BoundVariables
import FragmentEngine.Proofs.Select.GroupedColumn
/-!
# Types of expression columns

With the builtin functions all values of an operation or a call have one type, which the expression alone fixes. A
column of them has this type for every selection, and takes all of its values.
-/

namespace FragmentEngine

open Outcome

/-- A failure for anything but a value that a column does not take. -/
def Error.IsNoMismatch (error : Error) : Prop := ∀ found expected, error ≠ .exec (.typeMismatch found expected)

theorem FailsByBinding.noMismatch {α : Type} {x : Except Error α} (h : FailsByBinding x) :
    FailsOnly Error.IsNoMismatch x := by
  rintro error failed found expected rfl
  cases h _ failed

namespace Projection

variable {context : Context} {sources : List Source} {selection : Selection} {binder : RowBinder} {e : Expr}
  {type : FieldType}

/-- A visit keeps the accumulators fit, emits a value of the type of the expression, and fails for no mismatch. -/
theorem typed_visit (builtin : context.registry = .builtin)
    (bound : RowBinder.bind e sources context.args = .ok binder) (known : e.resultType .builtin = some type) (v : Visit)
    {g : GroupEvaluator} (same : g.expr = e) (fit : Fit (e.siteTypes .builtin) g.accumulators) :
    FailsOnly Error.IsNoMismatch ((visit context sources selection binder v).run g) ∧
    ∀ r, (visit context sources selection binder v).run g = .ok r →
      r.2.expr = e ∧ Fit (e.siteTypes .builtin) r.2.accumulators ∧ ∀ w, r.1 = some w → w.fieldType = type := by
  subst same
  rw [visit_eq]
  have begun : Fit (g.expr.siteTypes .builtin) (if v.starts then [] else g.accumulators) := by
    cases v.starts
    · exact fit
    · exact .nil _
  have registry {t : SymbolTable} (made : binder.table context sources selection v.entry = .ok t) :
      t.registry = .builtin := (RowBinder.describes_of_table bound made).1.trans builtin
  constructor
  · refine (FailsByBinding.table _ _ _ _ _).noMismatch.bind fun t made error failed => ?_
    rintro found expected rfl
    rcases Expr.ofRow_or_nested (registry made) g.expr (map_eq_error.1 failed) with ofRow | ⟨-, f, nested⟩
    · cases ofRow
    · cases nested
  · intro r done
    obtain ⟨t, made, done⟩ := bind_eq_ok.1 done
    obtain ⟨em, evaluated, rfl⟩ := map_eq_ok.1 done
    obtain ⟨kept, typed⟩ := Expr.fit_evalRow (registry made) v.last begun
    refine ⟨rfl, kept, fun w emitted => ?_⟩
    cases em with
    | emit x =>
      cases emitted
      exact typed _ evaluated type known w rfl
    | suppressed => cases emitted

/-- All values that visits emit have the type of the expression. -/
theorem typed_mapM_visit (selection : Selection) (builtin : context.registry = .builtin)
    (bound : RowBinder.bind e sources context.args = .ok binder) (known : e.resultType .builtin = some type)
    (vs : List Visit) : ∀ {g : GroupEvaluator}, g.expr = e → Fit (e.siteTypes .builtin) g.accumulators →
    FailsOnly Error.IsNoMismatch ((vs.mapM (visit context sources selection binder)).run g) ∧
    ∀ r, (vs.mapM (visit context sources selection binder)).run g = .ok r →
      ∀ w ∈ r.1.filterMap id, w.fieldType = type := by
  induction vs with
  | nil =>
    intro g _ _
    refine ⟨FailsOnly.ok _, fun r done => ?_⟩
    cases done
    exact nofun
  | cons v vs ih =>
    intro g same fit
    rw [List.mapM_cons, StateT.run_bind]
    obtain ⟨first, emits⟩ := typed_visit builtin bound known v same fit
    refine ⟨first.bind fun r₁ done => ?_, fun r done => ?_⟩
    · obtain ⟨same₁, fit₁, -⟩ := emits r₁ done
      rw [StateT.run_bind]
      exact (ih same₁ fit₁).1.bind fun _ _ => FailsOnly.ok _
    · obtain ⟨r₁, done₁, done⟩ := bind_eq_ok.1 done
      obtain ⟨same₁, fit₁, typed⟩ := emits r₁ done₁
      rw [StateT.run_bind] at done
      obtain ⟨r₂, done₂, done⟩ := bind_eq_ok.1 done
      cases done
      have others := (ih same₁ fit₁).2 r₂ done₂
      intro w mem
      obtain ⟨value, mem, emitted⟩ := List.mem_filterMap.1 mem
      rcases List.mem_cons.1 mem with rfl | mem
      · exact typed w emitted
      · exact others w (List.mem_filterMap.2 ⟨value, mem, emitted⟩)

/-- A column of an operation takes every value, and has the type of the expression if it has a cell. -/
theorem typed_exprColumn (builtin : context.registry = .builtin) (known : e.resultType .builtin = some type)
    (groups : Option (List Group)) (keyed : Bool) (name : String) :
    FailsOnly Error.IsNoMismatch (exprColumn context sources selection groups keyed name e) ∧
    ∀ data, exprColumn context sources selection groups keyed name e = .ok data → data.cells ≠ [] →
      data.field.type = type := by
  have visited {binder : RowBinder} (bound : RowBinder.bind e sources context.args = .ok binder) (lastOnly : Bool) :=
    typed_mapM_visit selection builtin bound known (visits selection groups lastOnly) (g := .new e) rfl (.nil _)
  constructor
  · refine (FailsByBinding.binder e sources context.args).noMismatch.bind fun binder bound => ?_
    refine FailsOnly.bind (fun error failed => ?_) fun emitted done => FailsOnly.bind ?_ fun _ _ => FailsOnly.ok _
    · rw [StateT.run'_eq] at failed
      exact (visited bound _).1 error (map_eq_error.1 failed)
    · rw [StateT.run'_eq] at done
      obtain ⟨r, run, rfl⟩ := map_eq_ok.1 done
      have typed := (visited bound _).2 r run
      -- the column has the type of each value, and so takes it
      refine FailsOnly.mapM fun w mem error failed => ?_
      rw [head_fieldType typed mem] at failed
      obtain ⟨cell, taken⟩ := Cell.encode_fieldType w
      cases taken.symm.trans failed
  · intro data made nonempty
    obtain ⟨binder, bound, made⟩ := bind_eq_ok.1 made
    obtain ⟨emitted, done, made⟩ := bind_eq_ok.1 made
    obtain ⟨cells, encoded, made⟩ := bind_eq_ok.1 made
    cases made
    rw [StateT.run'_eq] at done
    obtain ⟨r, run, rfl⟩ := map_eq_ok.1 done
    have typed := (visited bound _).2 r run
    obtain ⟨cell, mem⟩ := List.exists_mem_of_ne_nil _ nonempty
    obtain ⟨w, mem, -⟩ := exists_of_mem (mapM_eq_ok.1 encoded) mem
    exact (head_fieldType typed mem).trans (typed w mem)

end Projection

/-- An operation or a call has one type. With the builtin functions every value that is emitted for it has this type,
over any tables and whatever came before, and so has its value for a single row. Its column takes all of the values, and
has this type wherever there is a value. -/
theorem Expr.emits_one_type (e : Expr) (operation : e.isOperation = true) :
    ∃ type : FieldType,
      (∀ (g : GroupEvaluator) (t : SymbolTable) (v : Value), g.Reached .builtin e → t.registry = .builtin →
        (g.row t).1 = .ok (.emit v) → v.fieldType = type) ∧
      (∀ (t : SymbolTable) (v : Value), t.registry = .builtin → e.evaluate t = .ok v → v.fieldType = type) ∧
      ∀ (context : Context) (sources : List Source) (selection : Selection) (groups : Option (List Group))
        (keyed : Bool) (name : String), context.registry = .builtin →
        (∀ found expected, Projection.exprColumn context sources selection groups keyed name e ≠
          .error (.exec (.typeMismatch found expected))) ∧
        ∀ data, Projection.exprColumn context sources selection groups keyed name e = .ok data → data.cells ≠ [] →
          data.field.type = type := by
  obtain ⟨type, known⟩ := resultType_of_isOperation .builtin operation
  refine ⟨type, fun g t v reached builtin => reached.fieldType_of_row builtin known,
    fun t v builtin => fieldType_of_evaluate builtin known, ?_⟩
  intro context sources selection groups keyed name builtin
  obtain ⟨noMismatch, typed⟩ := Projection.typed_exprColumn builtin known groups keyed name
  exact ⟨fun found expected failed => noMismatch _ failed found expected rfl, typed⟩

/-- The greatest of some longs is a double: after a row that fails, and in a column. -/
theorem Expr.emits_one_type_maximum :
    let e : Expr := .call "oph_max" [.variable "v"]
    let row := fun v => (⟨.builtin, [("v", v)], 11⟩ : SymbolTable)
    let begun := ((GroupEvaluator.new e).row (row (.str "x"))).2.row (row (.long 7))
    let column := fun groups =>
      Projection.exprColumn ⟨.builtin, [], 0⟩ [Projection.readings] (.full 5) groups false "m" e
    let data : ColumnData := ⟨⟨"m", .real, false⟩, [12, 25, 7].map fun n => (Binary64.ofInt n).toBytes⟩
    e.isOperation = true ∧
      ((GroupEvaluator.new e).row (row (.str "x"))).1 = .error (.exec (.argumentType "oph_max" "STRING")) ∧
      ((begun.2.setLastRow true).row (row (.long 5))).1 = .ok (.emit (.double (Binary64.ofInt 7))) ∧
      column (some [⟨"1", [0, 1]⟩, ⟨"2", [2, 3]⟩, ⟨"3", [4]⟩]) = .ok data ∧
      (Value.double (Binary64.ofInt 7)).fieldType = data.field.type ∧
      ∀ groups found expected, column groups ≠ .error (.exec (.typeMismatch found expected)) := by
  intro e row begun column data
  have operation : e.isOperation = true := rfl
  have failed : ((GroupEvaluator.new e).row (row (.str "x"))).1 = .error (.exec (.argumentType "oph_max" "STRING")) := by
    decide +kernel
  have rows (v : Value) : (row v).registry = .builtin := rfl
  have reached : (begun.2.setLastRow true).Reached .builtin e := .setLastRow (.row (.row .new (rows _)) (rows _)) true
  have emits : ((begun.2.setLastRow true).row (row (.long 5))).1 = .ok (.emit (.double (Binary64.ofInt 7))) := by
    decide +kernel
  have made : column (some [⟨"1", [0, 1]⟩, ⟨"2", [2, 3]⟩, ⟨"3", [4]⟩]) = .ok data := by decide +kernel
  obtain ⟨type, emitted, -, columns⟩ := emits_one_type e operation
  have sameType := (columns ⟨.builtin, [], 0⟩ _ _ _ false "m" rfl).2 data made (List.cons_ne_nil _ _)
  exact ⟨operation, failed, emits, made, (emitted _ _ _ reached rfl emits).trans sameType.symm,
    fun groups => (columns ⟨.builtin, [], 0⟩ _ _ groups false "m" rfl).1⟩

end FragmentEngine
