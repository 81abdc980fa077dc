import FragmentEngine.Proofs.Expr.EmittedType
import FragmentEngine.Proofs.Expr.SingleRow
import FragmentEngine.Proofs.Fragment.Cell
import FragmentEngine.Proofs.Select.InRange
/-!
# Columns without aggregates

A column without aggregates shows the entries of a selection one by one. It depends on groups only by which entries
are shown: it has one cell for each of them, which is read back as the value at that entry.
-/

namespace FragmentEngine

/-- A literal or a positional argument. -/
def Column.isConstant : Column → Bool
  | .literal _ | .argument _ => true
  | .field _ _ | .expr _ => false

/-- A column with one cell for each of the given entries. -/
def Column.shownAt (context : Context) (sources : List Source) (selection : Selection) (name : String)
    (entries : List Nat) : Column → Except Error ColumnData
  | .literal v | .argument v => Projection.constantColumn name v entries.length
  | .field source column =>
    match sources[source]? with
    | none => .error (.exec .noSources)
    | some input =>
      match input.fragment.schema.fields[column]? with
      | none => .error (.exec (.noRecordField column))
      | some f => do
        let cells ← entries.mapM fun k => Projection.copiedCell input.fragment (selection.row source k) column
        return ⟨⟨f.name, f.type, input.fragment.schema.idIndex? == some column⟩, cells⟩
  | .expr e => do
    let _ ← RowBinder.bind e sources context.args
    let values ← entries.mapM (e.valueAt context sources selection)
    let type := (values.head?.map Value.fieldType).getD .real
    let cells ← values.mapM (Cell.encode type)
    return ⟨⟨name, type, false⟩, cells⟩

/-- What an expression shows as a column: itself unless it is a literal or a variable, and then it has a type of its
own. -/
inductive Column.Shows (context : Context) (sources : List Source) : Column → Expr → Prop
  | literal (v : Value) : Shows context sources (.literal v) (.literal v)
  | argument {name : String} {v : Value} (resolved : resolveVariable name sources context.args = .ok (.argument v)) :
    Shows context sources (.argument v) (.variable name)
  | field {name : String} {source i : Nat}
    (resolved : resolveVariable name sources context.args = .ok (.field source i)) :
    Shows context sources (.field source i) (.variable name)
  | expr {e : Expr} {type : FieldType} (known : e.resultType context.registry = some type) :
    Shows context sources (.expr e) e

theorem Column.shows_of_ofExpr {context : Context} {sources : List Source} {e : Expr} {column : Column}
    (h : Column.ofExpr context sources e = .ok column) : column.Shows context sources e := by
  cases e with
  | literal v =>
    cases h
    exact .literal v
  | «variable» name =>
    obtain ⟨b, resolved, h⟩ := Outcome.bind_eq_ok.1 h
    cases b with
    | argument v =>
      cases h
      exact .argument resolved
    | field source i =>
      cases h
      exact .field resolved
  | call f args =>
    cases h
    obtain ⟨type, known⟩ : ∃ type, (Expr.call f args).resultType context.registry = some type := by
      rw [Expr.resultType]
      split <;> exact ⟨_, rfl⟩
    exact .expr known
  | binary l op r =>
    cases h
    exact .expr rfl
  | unary op e =>
    cases h
    exact .expr rfl

namespace Projection

variable {p : Projection} {context : Context} {sources : List Source} {selection : Selection} {binder : RowBinder}
  {e : Expr} {column : Column} {groups : Option (List Group)} {keyed : Bool} {expected : Nat} {name text : String}

/-! ## Entries -/

/-- An expression is evaluated at the entries that its column shows. -/
theorem map_entry_visits (selection : Selection) (groups : Option (List Group)) (lastOnly : Bool) :
    (visits selection groups lastOnly).map Visit.entry = shownEntries selection groups lastOnly := by
  cases groups with
  | none =>
    unfold visits shownEntries
    rw [List.map_map]
    exact List.map_id _
  | some groups =>
    unfold visits shownEntries
    rw [List.map_flatMap]
    cases lastOnly with
    | true =>
      simp only [if_true, List.filterMap_eq_flatMap_toList]
      refine List.flatMap_congr fun g _ => ?_
      cases h : g.members.getLast? <;> simp [Visit.lastOnly, h]
    | false =>
      simp only [Bool.false_eq_true, if_false]
      refine List.flatMap_congr fun g _ => ?_
      rw [Visit.all, List.map_map]
      exact List.zipIdx_map_fst 0 g.members

/-! ## Evaluation -/

/-- A visit gives the value at its entry, whatever was visited before. -/
def GivesValue (context : Context) (sources : List Source) (selection : Selection) (binder : RowBinder) (e : Expr)
    (v : Visit) : Prop :=
  ∀ g : GroupEvaluator, g.expr = e → ∃ g', g'.expr = e ∧ (visit context sources selection binder v).run g =
    (e.valueAt context sources selection v.entry).map fun x => (some x, g')

/-- A visit gives the value at its entry if evaluating a row there is what evaluating a single row is. -/
theorem givesValue_of_evalRow {v : Visit} (bound : RowBinder.bind e sources context.args = .ok binder)
    (row : ∀ (t : SymbolTable) (accumulators : List Accumulator), t.registry = context.registry →
      (e.evalRow t v.last (if v.starts then [] else accumulators)).1 = (e.evaluate t).map .emit) :
    GivesValue context sources selection binder e v := by
  rintro g rfl
  cases table : binder.table context sources selection v.entry with
  | error _ =>
    refine ⟨g, rfl, ?_⟩
    rw [visit_eq, Expr.valueAt_bound bound, table]
    rfl
  | ok t =>
    refine ⟨⟨g.expr, (g.expr.evalRow t v.last (if v.starts then [] else g.accumulators)).2, v.last⟩, rfl, ?_⟩
    rw [visit_eq, Expr.valueAt_bound bound, table, Outcome.ok_bind, Outcome.ok_bind]
    dsimp only
    rw [row t g.accumulators (RowBinder.describes_of_table bound table).1]
    cases g.expr.evaluate t <;> rfl

/-- Visits that give values give those at their entries. -/
theorem mapM_visit {vs : List Visit} (gives : ∀ v ∈ vs, GivesValue context sources selection binder e v)
    {g : GroupEvaluator} (same : g.expr = e) :
    ∃ g', g'.expr = e ∧ (vs.mapM (visit context sources selection binder)).run g =
      ((vs.map Visit.entry).mapM (e.valueAt context sources selection)).map fun xs => (xs.map some, g') := by
  induction vs generalizing g with
  | nil => exact ⟨g, same, rfl⟩
  | cons v vs ih =>
    rw [List.forall_mem_cons] at gives
    obtain ⟨g₁, same₁, first⟩ := gives.1 g same
    obtain ⟨g₂, same₂, others⟩ := ih gives.2 same₁
    refine ⟨g₂, same₂, ?_⟩
    rw [List.mapM_cons, List.map_cons, List.mapM_cons]
    rw [StateT.run_bind, first]
    cases e.valueAt context sources selection v.entry with
    | error _ => rfl
    | ok x =>
      show ((vs.mapM (visit context sources selection binder)).run g₁ >>= _) = _
      rw [others]
      cases (vs.map Visit.entry).mapM (e.valueAt context sources selection) <;> rfl

/-- An expression whose visits give values shows those of the entries visited. -/
theorem exprColumn_eq_shownAt (gives : ∀ binder, RowBinder.bind e sources context.args = .ok binder →
      ∀ v ∈ visits selection groups (keyed && !e.isAggregating context.registry),
        GivesValue context sources selection binder e v) :
    exprColumn context sources selection groups keyed name e =
      (Column.expr e).shownAt context sources selection name
        (shownEntries selection groups (keyed && !e.isAggregating context.registry)) := by
  simp only [exprColumn, Column.shownAt]
  cases bound : RowBinder.bind e sources context.args with
  | error _ => rfl
  | ok binder =>
    obtain ⟨g, -, visited⟩ := mapM_visit (gives binder bound) (g := .new e) rfl
    rw [map_entry_visits] at visited
    simp only [Outcome.ok_bind, StateT.run'_eq, visited]
    cases (shownEntries selection groups (keyed && !e.isAggregating context.registry)).mapM
        (e.valueAt context sources selection) with
    | error _ => rfl
    | ok values =>
      have emitted : (values.map some).filterMap id = values := by simp
      show (Except.ok (values.map some) >>= _) = _
      simp only [Outcome.ok_bind, emitted]

/-- Without aggregates every visit gives the value at its entry. -/
theorem givesValue_of_plain (bound : RowBinder.bind e sources context.args = .ok binder)
    (plain : e.isAggregating context.registry = false) (v : Visit) :
    GivesValue context sources selection binder e v := by
  refine givesValue_of_evalRow bound fun t accumulators registry => ?_
  rw [← registry] at plain
  have steady := Expr.steady_eval [] v.last e plain ⟨if v.starts then [] else accumulators, 0⟩
  rw [Expr.evaluate_eq_rollUp [] plain]
  refine (congrArg Prod.fst steady).trans ?_
  cases e.rollUp [] t <;> rfl

/-- An expression without aggregates shows its values at the entries shown. -/
theorem exprColumn_plain (plain : e.isAggregating context.registry = false) :
    exprColumn context sources selection groups keyed name e =
      (Column.expr e).shownAt context sources selection name (shownEntries selection groups keyed) := by
  rw [exprColumn_eq_shownAt fun _ bound v _ => givesValue_of_plain bound plain v, plain, Bool.not_false, Bool.and_true]

/-- Without numbering the cells of the entries shown are copied. -/
theorem fieldColumn_plain (context : Context) (name : String) (unnumbered : p.sequentialId = none) (source i : Nat) :
    p.fieldColumn sources selection groups keyed source i =
      (Column.field source i).shownAt context sources selection name (shownEntries selection groups keyed) := by
  have copied (f : Fragment) :
      ((shownEntries selection groups keyed).zipIdx.mapM fun entry => copiedCell f (selection.row source entry.1) i) =
        (shownEntries selection groups keyed).mapM fun k => copiedCell f (selection.row source k) i := by
    conv_rhs => rw [← List.zipIdx_map_fst 0 (shownEntries selection groups keyed), List.mapM_map]
    rfl
  cases known : sources[source]? with
  | none => simp only [fieldColumn, Column.shownAt, known]
  | some input =>
    cases found : input.fragment.schema.fields[i]? with
    | none => simp only [fieldColumn, Column.shownAt, known, found]
    | some field => simp only [fieldColumn, Column.shownAt, known, found, unnumbered, copied]

/-- A column is made of the entries shown if its expression, where it is one, shows its values there, and if these
entries, where it is constant, are as many as there are rows. -/
theorem column_eq_of_exprColumn (parsed : Expr.parse text = .ok e)
    (shown : Column.ofExpr context sources e = .ok column) (unnumbered : p.sequentialId = none)
    (values : ∀ name, exprColumn context sources selection groups (p.groupBy == some e) name e =
      (Column.expr e).shownAt context sources selection name
        (shownEntries selection groups (p.groupBy == some e)))
    (rows : column.isConstant = true → (shownEntries selection groups (p.groupBy == some e)).length = expected) :
    p.column context sources selection groups expected text =
      column.shownAt context sources selection (Text.trimmed text)
        (shownEntries selection groups (p.groupBy == some e)) := by
  unfold Projection.column
  rw [parsed, Outcome.ok_bind, shown, Outcome.ok_bind]
  cases column with
  | literal v => rw [Column.shownAt, rows rfl]
  | argument v => rw [Column.shownAt, rows rfl]
  | field source i => exact fieldColumn_plain context _ unnumbered source i
  | expr e' =>
    cases Column.shows_of_ofExpr shown
    exact values _

/-- A column without aggregates is made of the entries shown, for a constant if these are as many as there are rows. -/
theorem column_eq_shownAt (parsed : Expr.parse text = .ok e) (shown : Column.ofExpr context sources e = .ok column)
    (plain : e.isAggregating context.registry = false) (unnumbered : p.sequentialId = none)
    (rows : column.isConstant = true → (shownEntries selection groups (p.groupBy == some e)).length = expected) :
    p.column context sources selection groups expected text =
      column.shownAt context sources selection (Text.trimmed text)
        (shownEntries selection groups (p.groupBy == some e)) :=
  column_eq_of_exprColumn parsed shown unnumbered (fun _ => exprColumn_plain plain) rows

theorem exec_of_copiedCell {f : Fragment} {row i : Nat} {error : Error} (h : copiedCell f row i = .error error) :
    ∃ cause, error = .exec cause := by
  unfold copiedCell at h
  split at h
  · unfold Record.cell at h
    split at h <;> cases h
    exact ⟨_, rfl⟩
  · cases h
    exact ⟨_, rfl⟩

end Projection

/-! ## Values at entries -/

section

variable {context : Context} {sources : List Source} {selection : Selection} {name : String} {e : Expr} {k : Nat}
  {v : Value}

theorem Expr.valueAt_literal (v : Value) (k : Nat) :
    (Expr.literal v).valueAt context sources selection k = .ok v := rfl

/-- The value of a variable is that of what it stands for. -/
theorem Expr.valueAt_variable (h : (Expr.variable name).valueAt context sources selection k = .ok v) :
    ∃ b, resolveVariable name sources context.args = .ok b ∧ RowBinder.value sources selection k b = .ok v := by
  obtain ⟨binder, bound, h⟩ := Outcome.bind_eq_ok.1 h
  obtain ⟨t, table, h⟩ := Outcome.bind_eq_ok.1 h
  obtain ⟨b, w, resolved, value, known⟩ :=
    (RowBinder.describes_of_table bound table).2 name (mem_distinct.2 (List.mem_singleton_self name))
  have same : t.value name = .ok v := (Expr.evaluate_eq_rollUp [] rfl).symm.trans h
  cases known.symm.trans same
  exact ⟨b, resolved, (RowBinder.valueIn_rowsAt sources selection k b).symm.trans value⟩

/-- With the builtin functions the values of an expression have one type. -/
theorem Expr.fieldType_of_valueAt {type : FieldType} (builtin : context.registry = .builtin)
    (known : e.resultType context.registry = some type) (h : e.valueAt context sources selection k = .ok v) :
    v.fieldType = type := by
  obtain ⟨binder, bound, h⟩ := Outcome.bind_eq_ok.1 h
  obtain ⟨t, table, h⟩ := Outcome.bind_eq_ok.1 h
  have registry : t.registry = context.registry := (RowBinder.describes_of_table bound table).1
  rw [builtin] at known
  exact fieldType_of_evaluate (registry.trans builtin) known h

/-- With the builtin functions all values of an expression have the type of the first. -/
theorem Expr.head_fieldType {type : FieldType} {entries : List Nat} {values : List Value}
    (builtin : context.registry = .builtin) (known : e.resultType context.registry = some type)
    (evaluated : entries.mapM (e.valueAt context sources selection) = .ok values) (mem : v ∈ values) :
    (values.head?.map Value.fieldType).getD .real = v.fieldType := by
  have typed : ∀ w ∈ values, w.fieldType = type := fun w mem => by
    obtain ⟨k, -, value⟩ := Outcome.exists_of_mem (Outcome.mapM_eq_ok.1 evaluated) mem
    exact fieldType_of_valueAt builtin known value
  exact Projection.head_fieldType typed mem

/-- A value that is read is that of the cell that is copied. -/
theorem Fragment.value_eq_ok {f : Fragment} {row column : Nat} (h : f.value row column = .ok v) :
    ∃ field cell, f.schema.fields[column]? = some field ∧ Projection.copiedCell f row column = .ok cell ∧
      Cell.decode field.type cell = .ok v := by
  unfold Fragment.value at h
  split at h
  · cases h
  next r found =>
    split at h
    · cases h
    next field known =>
      obtain ⟨cell, stored, h⟩ := Outcome.bind_eq_ok.1 h
      refine ⟨field, cell, known, ?_, h⟩
      unfold Projection.copiedCell
      rw [found]
      exact stored

/-- The value of a variable that stands for a column is that of the cell that is copied. -/
theorem Expr.valueAt_field {source i : Nat} {input : Source} {field : Field}
    (resolved : resolveVariable name sources context.args = .ok (.field source i))
    (known : sources[source]? = some input) (found : input.fragment.schema.fields[i]? = some field)
    (h : (Expr.variable name).valueAt context sources selection k = .ok v) :
    ∃ cell, Projection.copiedCell input.fragment (selection.row source k) i = .ok cell ∧
      Cell.decode field.type cell = .ok v := by
  obtain ⟨b, same, h⟩ := valueAt_variable h
  cases resolved.symm.trans same
  simp only [RowBinder.value, known] at h
  obtain ⟨field', cell, found', copied, decoded⟩ := Fragment.value_eq_ok h
  cases found.symm.trans found'
  exact ⟨cell, copied, decoded⟩

/-- A variable that does not stand for an argument stands for a column that there is. -/
theorem field_of_resolveVariable {args : List Argument} {source i : Nat}
    (h : resolveVariable name sources args = .ok (.field source i)) :
    ∃ input field, sources[source]? = some input ∧ input.fragment.schema.fields[i]? = some field := by
  unfold resolveVariable at h
  split at h
  · obtain ⟨v, -, h⟩ := Outcome.bind_eq_ok.1 h
    cases h
  · obtain ⟨⟨source, i⟩, resolved, h⟩ := Outcome.bind_eq_ok.1 h
    cases h
    obtain ⟨input, known, lt⟩ := resolveField_lt resolved
    exact ⟨input, _, known, List.getElem?_eq_getElem lt⟩

end

/-! ## The cells shown -/

namespace Column

variable {context : Context} {sources : List Source} {selection : Selection} {name : String} {entries : List Nat}
  {e : Expr} {column : Column} {data : ColumnData} {source i : Nat}

theorem shownAt_field_eq_ok :
    (Column.field source i).shownAt context sources selection name entries = .ok data ↔
      ∃ input f cells, sources[source]? = some input ∧ input.fragment.schema.fields[i]? = some f ∧
        (entries.mapM fun k => Projection.copiedCell input.fragment (selection.row source k) i) = .ok cells ∧
        data = ⟨⟨f.name, f.type, input.fragment.schema.idIndex? == some i⟩, cells⟩ := by
  constructor
  · intro h
    simp only [shownAt] at h
    split at h
    · cases h
    next input known =>
      split at h
      · cases h
      next f found =>
        obtain ⟨cells, copied, h⟩ := Outcome.bind_eq_ok.1 h
        cases h
        exact ⟨input, f, cells, known, found, copied, rfl⟩
  · rintro ⟨input, f, cells, known, found, copied, rfl⟩
    simp only [shownAt, known, found, copied]
    rfl

theorem shownAt_expr_eq_ok :
    (Column.expr e).shownAt context sources selection name entries = .ok data ↔
      ∃ binder values cells, RowBinder.bind e sources context.args = .ok binder ∧
        entries.mapM (e.valueAt context sources selection) = .ok values ∧
        values.mapM (Cell.encode ((values.head?.map Value.fieldType).getD .real)) = .ok cells ∧
        data = ⟨⟨name, (values.head?.map Value.fieldType).getD .real, false⟩, cells⟩ := by
  constructor
  · intro h
    obtain ⟨binder, bound, h⟩ := Outcome.bind_eq_ok.1 h
    obtain ⟨values, evaluated, h⟩ := Outcome.bind_eq_ok.1 h
    obtain ⟨cells, encoded, h⟩ := Outcome.bind_eq_ok.1 h
    cases h
    exact ⟨binder, values, cells, bound, evaluated, encoded, rfl⟩
  · rintro ⟨binder, values, cells, bound, evaluated, encoded, rfl⟩
    simp only [shownAt, bound, evaluated, Outcome.ok_bind, encoded]
    rfl

/-- There is one cell for each entry. -/
theorem length_of_shownAt (h : column.shownAt context sources selection name entries = .ok data) :
    data.cells.length = entries.length := by
  cases column with
  | literal v =>
    obtain ⟨cell, -, h⟩ := Outcome.bind_eq_ok.1 h
    cases h
    exact List.length_replicate
  | argument v =>
    obtain ⟨cell, -, h⟩ := Outcome.bind_eq_ok.1 h
    cases h
    exact List.length_replicate
  | field source i =>
    obtain ⟨input, f, cells, -, -, copied, rfl⟩ := shownAt_field_eq_ok.1 h
    exact (Outcome.mapM_eq_ok.1 copied).length_eq.symm
  | expr e =>
    obtain ⟨binder, values, cells, -, evaluated, encoded, rfl⟩ := shownAt_expr_eq_ok.1 h
    exact ((Outcome.mapM_eq_ok.1 evaluated).length_eq.trans (Outcome.mapM_eq_ok.1 encoded).length_eq).symm

/-- Where its expression has values, a column fails in execution only. -/
theorem exec_of_shownAt (shown : column.Shows context sources e)
    (bound : ∃ binder, RowBinder.bind e sources context.args = .ok binder)
    (values : ∀ k ∈ entries, ∃ v, e.valueAt context sources selection k = .ok v) {error : Error}
    (h : column.shownAt context sources selection name entries = .error error) : ∃ cause, error = .exec cause := by
  have constant {v : Value} {rows : Nat} (h : Projection.constantColumn name v rows = .error error) :
      ∃ cause, error = .exec cause := by
    rcases Outcome.bind_eq_error.1 h with h | ⟨cell, -, h⟩
    · exact Cell.encode_error h
    · cases h
  cases shown with
  | literal v => exact constant h
  | argument _ => exact constant h
  | @field _ source i _ =>
    simp only [shownAt] at h
    split at h
    · cases h
      exact ⟨_, rfl⟩
    split at h
    · cases h
      exact ⟨_, rfl⟩
    rcases Outcome.bind_eq_error.1 h with h | ⟨cells, -, h⟩
    · obtain ⟨k, -, h⟩ := Outcome.exists_of_mapM_eq_error h
      exact Projection.exec_of_copiedCell h
    · cases h
  | expr _ =>
    obtain ⟨binder, bound⟩ := bound
    obtain ⟨vs, evaluated⟩ := Outcome.mapM_total values
    simp only [shownAt, bound, evaluated, Outcome.ok_bind] at h
    rcases Outcome.bind_eq_error.1 h with h | ⟨cells, -, h⟩
    · obtain ⟨v, -, h⟩ := Outcome.exists_of_mapM_eq_error h
      exact Cell.encode_error h
    · cases h

/-- With the builtin functions there is a column where its expression has values. -/
theorem exists_shownAt (builtin : context.registry = .builtin) (shown : column.Shows context sources e)
    (bound : ∃ binder, RowBinder.bind e sources context.args = .ok binder)
    (values : ∀ k ∈ entries, ∃ v, e.valueAt context sources selection k = .ok v) (name : String) :
    ∃ data, column.shownAt context sources selection name entries = .ok data := by
  have constant (v : Value) : ∃ data, Projection.constantColumn name v entries.length = .ok data := by
    obtain ⟨cell, encoded⟩ := Cell.encode_fieldType v
    exact ⟨_, Outcome.bind_eq_ok.2 ⟨cell, encoded, rfl⟩⟩
  cases shown with
  | literal v => exact constant v
  | argument _ => exact constant _
  | @field _ source i resolved =>
    obtain ⟨input, f, known, found⟩ := field_of_resolveVariable resolved
    obtain ⟨cells, copied⟩ : ∃ cells,
        (entries.mapM fun k => Projection.copiedCell input.fragment (selection.row source k) i) = .ok cells := by
      refine Outcome.mapM_total fun k mem => ?_
      obtain ⟨v, value⟩ := values k mem
      obtain ⟨cell, copied, -⟩ := Expr.valueAt_field resolved known found value
      exact ⟨cell, copied⟩
    exact ⟨_, shownAt_field_eq_ok.2 ⟨input, f, cells, known, found, copied, rfl⟩⟩
  | @expr e type known =>
    obtain ⟨binder, bound⟩ := bound
    obtain ⟨vs, evaluated⟩ := Outcome.mapM_total values
    obtain ⟨cells, encoded⟩ : ∃ cells,
        vs.mapM (Cell.encode ((vs.head?.map Value.fieldType).getD .real)) = .ok cells := by
      refine Outcome.mapM_total fun v mem => ?_
      rw [Expr.head_fieldType builtin known evaluated mem]
      exact Cell.encode_fieldType v
    exact ⟨_, shownAt_expr_eq_ok.2 ⟨binder, vs, cells, bound, evaluated, encoded, rfl⟩⟩

/-- With the builtin functions the cell of an entry is read back as the value there. -/
theorem readBack_of_shownAt (builtin : context.registry = .builtin) (shown : column.Shows context sources e)
    (values : ∀ k ∈ entries, ∃ v, e.valueAt context sources selection k = .ok v)
    (h : column.shownAt context sources selection name entries = .ok data) :
    List.Forall₂ (fun k cell => ∃ v, e.valueAt context sources selection k = .ok v ∧
      Cell.decode data.field.type cell = .ok v) entries data.cells := by
  have constant {v : Value} (value : ∀ k ∈ entries, e.valueAt context sources selection k = .ok v)
      (h : Projection.constantColumn name v entries.length = .ok data) :
      List.Forall₂ (fun k cell => ∃ v, e.valueAt context sources selection k = .ok v ∧
        Cell.decode data.field.type cell = .ok v) entries data.cells := by
    obtain ⟨cell, encoded, h⟩ := Outcome.bind_eq_ok.1 h
    cases h
    rw [← List.map_const', List.forall₂_map_right_iff, List.forall₂_same]
    exact fun k mem => ⟨v, value k mem, Cell.decode_of_encode encoded⟩
  cases shown with
  | literal v => exact constant (fun k _ => Expr.valueAt_literal v k) h
  | argument resolved =>
    refine constant (fun k mem => ?_) h
    obtain ⟨v, value⟩ := values k mem
    obtain ⟨b, same, known⟩ := Expr.valueAt_variable value
    cases resolved.symm.trans same
    cases known
    exact value
  | field resolved =>
    obtain ⟨input, f, cells, known, found, copied, rfl⟩ := shownAt_field_eq_ok.1 h
    refine ((List.forall₂_and_left _ _).2 ⟨values, Outcome.mapM_eq_ok.1 copied⟩).imp ?_
    rintro k cell ⟨⟨v, value⟩, here⟩
    obtain ⟨cell', there, decoded⟩ := Expr.valueAt_field resolved known found value
    cases here.symm.trans there
    exact ⟨v, value, decoded⟩
  | expr known =>
    obtain ⟨binder, vs, cells, -, evaluated, encoded, rfl⟩ := shownAt_expr_eq_ok.1 h
    refine Outcome.forall₂_trans (Outcome.mapM_eq_ok.1 evaluated) ?_
    have typed := fun v (mem : v ∈ vs) => Expr.head_fieldType builtin known evaluated mem
    refine ((List.forall₂_and_left _ _).2 ⟨typed, Outcome.mapM_eq_ok.1 encoded⟩).imp ?_
    rintro v cell ⟨type, encoded⟩
    rw [type] at encoded ⊢
    exact Cell.decode_of_encode encoded

end Column

end FragmentEngine
