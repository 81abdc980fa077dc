import FragmentEngine.Proofs.Expr.ResultType
import FragmentEngine.Proofs.Select.Grouping
import FragmentEngine.Select.Projection
/-!
# Columns of grouped expressions

A column of an expression with aggregates has one value for each group: the expression rolled up over the rows of
the group's members. It depends on nothing else.
-/

namespace FragmentEngine

/-! ## Groups have members -/

namespace Group

/-- Grouping makes no empty group. -/
theorem members_ne_nil {context : Context} {sources : List Source} {selection : Selection} {e : Expr}
    {groups : List Group} (h : ofSelection context sources selection e = .ok groups) :
    ∀ g ∈ groups, g.members ≠ [] := (SharesOut.of_ofSelection h).nonempty

/-- The value of an expression for a group: rolled up over the rows of its members. -/
def rollUp (context : Context) (sources : List Source) (selection : Selection) (e : Expr) (g : Group) :
    Except Error Value := do
  let binder ← RowBinder.bind e sources context.args
  let rows ← g.members.mapM (binder.table context sources selection)
  match rows.getLast? with
  | some last => e.rollUp rows last
  | none => .error (.exec .noValue)

/-- Other inputs do not differ for an expression over a group: the variables stand for the same, and every column and
argument has the same value for each of the members. -/
structure SameRows (g : Group) (args : List Argument) (e : Expr) (sources : List Source) (selection : Selection)
    (sources' : List Source) (selection' : Selection) : Prop where
  bound : RowBinder.bind e sources' args = RowBinder.bind e sources args
  value : ∀ k ∈ g.members, ∀ b, RowBinder.value sources' selection' k b = RowBinder.value sources selection k b

/-- The value of a group depends on no rows but its own. -/
theorem SameRows.rollUp_eq {context : Context} {sources sources' : List Source} {selection selection' : Selection}
    {e : Expr} {g : Group} (h : g.SameRows context.args e sources selection sources' selection') :
    g.rollUp context sources' selection' e = g.rollUp context sources selection e := by
  have tables : ∀ binder : RowBinder, ∀ k ∈ g.members,
      binder.table context sources' selection' k = binder.table context sources selection k := fun binder k mem => by
    simp only [RowBinder.table, h.value k mem]
  simp only [rollUp, h.bound, fun binder => Outcome.mapM_congr (tables binder)]

/-- With the builtin functions the values of an expression for all groups have one type. -/
theorem fieldType_of_rollUp {context : Context} {sources : List Source} {selection : Selection} {e : Expr} {g : Group}
    {v : Value} {type : FieldType} (builtin : context.registry = .builtin)
    (known : e.resultType context.registry = some type) (h : g.rollUp context sources selection e = .ok v) :
    v.fieldType = type := by
  obtain ⟨binder, bound, h⟩ := Outcome.bind_eq_ok.1 h
  obtain ⟨rows, evaluated, h⟩ := Outcome.bind_eq_ok.1 h
  split at h
  next last at_last =>
    obtain ⟨k, -, table⟩ := Outcome.exists_of_mem (Outcome.mapM_eq_ok.1 evaluated) (List.mem_of_getLast? at_last)
    have registry : last.registry = context.registry := (RowBinder.describes_of_table bound table).1
    rw [← registry] at builtin known
    exact Expr.fieldType_of_rollUp builtin known h
  next => cases h

end Group

namespace Projection

variable {context : Context} {sources : List Source} {selection : Selection} {binder : RowBinder} {e : Expr}

theorem row_visit (g : GroupEvaluator) (starts last : Bool) (t : SymbolTable) :
    ((if starts then g.boundary else g).setLastRow last).row t =
      let r := (g.expr.eval t last).run ⟨if starts then [] else g.accumulators, 0⟩
      (r.1, ⟨g.expr, r.2.accumulators, last⟩) := by
  cases starts <;> rfl

/-- A visit evaluates the row of its entry, from no accumulators where a group starts. -/
theorem visit_eq (v : Visit) (g : GroupEvaluator) :
    (visit context sources selection binder v).run g =
      binder.table context sources selection v.entry >>= fun t =>
        let (result, accumulators) := g.expr.evalRow t v.last (if v.starts then [] else g.accumulators)
        result.map fun em => (em.value?, ⟨g.expr, accumulators, v.last⟩) := by
  show (binder.table context sources selection v.entry >>= _) = _
  cases binder.table context sources selection v.entry with
  | error _ => rfl
  | ok t =>
    simp only [Outcome.ok_bind, row_visit, Expr.evalRow, StateT.run]
    rcases (g.expr.eval t v.last).run ⟨if v.starts then [] else g.accumulators, 0⟩ with ⟨_ | em, s⟩
    · rfl
    · cases em <;> rfl

/-- What a visit that succeeds has evaluated. -/
theorem visit_eq_ok {v : Visit} {g : GroupEvaluator} {r : Option Value × GroupEvaluator}
    (h : (visit context sources selection binder v).run g = .ok r) :
    ∃ t em s, binder.table context sources selection v.entry = .ok t ∧
      Eval.Ends (g.expr.eval t v.last) ⟨if v.starts then [] else g.accumulators, 0⟩ em s ∧
      r = (em.value?, ⟨g.expr, s.accumulators, v.last⟩) := by
  rw [visit_eq] at h
  obtain ⟨t, table, h⟩ := Outcome.bind_eq_ok.1 h
  obtain ⟨em, evaluated, rfl⟩ := Outcome.map_eq_ok.1 h
  exact ⟨t, em, _, table, Prod.ext evaluated rfl, rfl⟩

section Visit

variable {rows : List SymbolTable} {v : Visit} {g : GroupEvaluator} {r : Option Value × GroupEvaluator}

/-- A visit to a member takes the member's row in, and gives what the evaluation of the row gives. -/
theorem walked_of_visit (bound : RowBinder.bind g.expr sources context.args = .ok binder)
    (flat : g.expr.isFlat context.registry = true)
    (taken : TakenIn rows (if v.starts then [] else g.accumulators) 0 (g.expr.aggregateCalls context.registry))
    (h : (visit context sources selection binder v).run g = .ok r) :
    ∃ t, binder.table context sources selection v.entry = .ok t ∧ r.2.expr = g.expr ∧
      (v.last = false → TakenIn (rows ++ [t]) r.2.accumulators 0 (g.expr.aggregateCalls context.registry)) ∧
      Told v.last (g.expr.aggregateCalls context.registry) (g.expr.rollUp (rows ++ [t]) t) r.1 := by
  obtain ⟨t, em, s, table, evaluated, rfl⟩ := visit_eq_ok h
  have registry : t.registry = context.registry := (RowBinder.describes_of_table bound table).1
  rw [← registry] at flat taken ⊢
  obtain ⟨walked, told⟩ := walk_eval _ g.expr flat (Nat.zero_le _) taken evaluated
  exact ⟨t, table, rfl, walked.taken, told⟩

end Visit

/-- The members from the `n`th on, of `total`. -/
def visitsFrom (n total : Nat) (members : List Nat) : List Visit :=
  (members.zipIdx n).map fun (k, i) => ⟨i == 0, i + 1 == total, k⟩

/-- Visiting the members of a group that are left, after some rows of it, emits the group's value at the end. -/
theorem mapM_visitsFrom (bound : RowBinder.bind e sources context.args = .ok binder)
    (flat : e.isFlat context.registry = true) (aggregating : e.aggregateCalls context.registry ≠ []) :
    ∀ (members : List Nat) (rows : List SymbolTable) (g : GroupEvaluator) (r : List (Option Value) × GroupEvaluator),
      members ≠ [] → g.expr = e →
      TakenIn rows (if rows.length == 0 then [] else g.accumulators) 0 (e.aggregateCalls context.registry) →
      ((visitsFrom rows.length (rows.length + members.length) members).mapM
        (visit context sources selection binder)).run g = .ok r →
      ∃ tables last v, members.mapM (binder.table context sources selection) = .ok tables ∧
        tables.getLast? = some last ∧ e.rollUp (rows ++ tables) last = .ok v ∧
        r.1.filterMap id = [v] ∧ r.2.expr = e := by
  intro members
  induction members with
  | nil => exact fun _ _ _ nonempty => absurd rfl nonempty
  | cons k members ih =>
    intro rows g r _ same taken h
    subst same
    rw [visitsFrom, List.zipIdx_cons, List.map_cons, List.mapM_cons] at h
    obtain ⟨⟨value, g₁⟩, visited, h⟩ := Outcome.bind_eq_ok.1 h
    obtain ⟨others, rest, h⟩ := Outcome.bind_eq_ok.1 h
    cases h
    obtain ⟨t, table, same, taken', told⟩ := walked_of_visit bound flat taken visited
    cases members with
    | nil =>
      -- the last member: its visit gives the value
      cases rest
      cases told with
      | value v _ rolled =>
        refine ⟨[t], t, v, ?_, rfl, rolled, rfl, same⟩
        rw [List.mapM_cons, table]
        rfl
      | waiting early _ => simp at early
    | cons k' members =>
      -- a member before the last: there is no value yet, and the others go on from its row
      have early : (rows.length + 1 == rows.length + (k :: k' :: members).length) = false := by simp
      cases told with
      | value _ due _ => exact absurd due (by simp [aggregating])
      | waiting _ _ =>
        have counted : (rows ++ [t]).length = rows.length + 1 := List.length_append
        have continued : (rows ++ [t]).length + (k' :: members).length = rows.length + (k :: k' :: members).length := by
          simp only [List.length_append, List.length_cons, List.length_nil]
          omega
        obtain ⟨tables, last, v, evaluated, at_last, rolled, emitted, same'⟩ :=
          ih (rows ++ [t]) g₁ others (List.cons_ne_nil _ _) same
            (by rw [counted]; exact taken' early) (by rw [continued, counted]; exact rest)
        refine ⟨t :: tables, last, v, ?_, ?_, ?_, emitted, same'⟩
        · rw [List.mapM_cons, table, Outcome.ok_bind, evaluated]
          rfl
        · rw [List.getLast?_cons, at_last]
          rfl
        · rw [← rolled, List.append_assoc]
          rfl

/-- One value for each group, in order. -/
theorem mapM_groups (bound : RowBinder.bind e sources context.args = .ok binder)
    (flat : e.isFlat context.registry = true) (aggregating : e.aggregateCalls context.registry ≠ [])
    {groups : List Group} (nonempty : ∀ g ∈ groups, g.members ≠ []) :
    ∀ (g : GroupEvaluator) (r : List (Option Value) × GroupEvaluator), g.expr = e →
      ((groups.flatMap fun g => Visit.all g.members).mapM (visit context sources selection binder)).run g = .ok r →
      List.Forall₂ (fun g v => Group.rollUp context sources selection e g = .ok v) groups (r.1.filterMap id) := by
  induction groups with
  | nil =>
    intro g r _ h
    cases h
    exact .nil
  | cons group groups ih =>
    intro g r same h
    rw [List.flatMap_cons, List.mapM_append] at h
    obtain ⟨own, first, h⟩ := Outcome.bind_eq_ok.1 h
    obtain ⟨others, rest, h⟩ := Outcome.bind_eq_ok.1 h
    cases h
    have visits : Visit.all group.members = visitsFrom 0 (0 + group.members.length) group.members := by
      rw [Nat.zero_add]
      rfl
    rw [visits] at first
    obtain ⟨tables, last, v, evaluated, at_last, rolled, emitted, same'⟩ :=
      mapM_visitsFrom bound flat aggregating group.members [] g own (nonempty group List.mem_cons_self) same
        (.start _ _) first
    have value : Group.rollUp context sources selection e group = .ok v := by
      rw [Group.rollUp, bound, Outcome.ok_bind, evaluated, Outcome.ok_bind]
      simp only [at_last]
      exact rolled
    have others := ih (fun g mem => nonempty g (List.mem_cons_of_mem _ mem)) own.2 others same' rest
    rw [List.filterMap_append, emitted]
    exact .cons value others

/-- Values of one type have the type of the first. -/
theorem head_fieldType {values : List Value} {type : FieldType} {v : Value} (typed : ∀ w ∈ values, w.fieldType = type)
    (mem : v ∈ values) : (values.head?.map Value.fieldType).getD .real = v.fieldType := by
  cases values with
  | nil => cases mem
  | cons first others => exact (typed first List.mem_cons_self).trans (typed v mem).symm

/-- With the builtin functions, a column of an expression that has aggregate calls, but none within another, has
exactly one value for each group, in the order of the groups: the expression at the last row of the group, with
every aggregate call standing for what an accumulator of its own makes of the rows of the group. -/
theorem exprColumn_eq_rollUp {groups : List Group} {keyed : Bool} {name : String} {column : ColumnData}
    (builtin : context.registry = .builtin) (aggregating : e.isAggregating context.registry = true)
    (flat : e.isFlat context.registry = true) (nonempty : ∀ g ∈ groups, g.members ≠ [])
    (h : exprColumn context sources selection (some groups) keyed name e = .ok column) :
    ∃ values,
      List.Forall₂ (fun g v => g.rollUp context sources selection e = .ok v ∧
        ∀ sources' selection', g.SameRows context.args e sources selection sources' selection' →
          g.rollUp context sources' selection' e = .ok v) groups values ∧
      column.field.name = name ∧
      List.Forall₂ (fun v cell => v.fieldType = column.field.type ∧ Cell.encode column.field.type v = .ok cell)
        values column.cells := by
  obtain ⟨binder, bound, h⟩ := Outcome.bind_eq_ok.1 h
  obtain ⟨emitted, visited, h⟩ := Outcome.bind_eq_ok.1 h
  obtain ⟨cells, encoded, h⟩ := Outcome.bind_eq_ok.1 h
  cases h
  -- the last row of a group is not enough for an aggregate: every member of every group is visited
  have all : visits selection (some groups) (keyed && !e.isAggregating context.registry) =
      groups.flatMap fun g => Visit.all g.members := by
    rw [aggregating, Bool.not_true, Bool.and_false]
    rfl
  rw [all, StateT.run'_eq] at visited
  obtain ⟨r, run, rfl⟩ := Outcome.map_eq_ok.1 visited
  have called : e.aggregateCalls context.registry ≠ [] := fun none => by
    have plain := Expr.aggregateCalls_eq_nil e none
    rw [← Expr.isAggregating, aggregating] at plain
    cases plain
  have values := mapM_groups bound flat called nonempty (GroupEvaluator.new e) r rfl run
  obtain ⟨type, known⟩ := Expr.resultType_isSome aggregating
  have typed : ∀ v ∈ r.1.filterMap id, v.fieldType = type := fun v mem => by
    obtain ⟨g, -, rolled⟩ := Outcome.exists_of_mem values mem
    exact Group.fieldType_of_rollUp builtin known rolled
  refine ⟨_, values.imp fun g v rolled => ⟨rolled, fun _ _ same => same.rollUp_eq.trans rolled⟩, rfl, ?_⟩
  exact (List.forall₂_and_left _ _).2 ⟨fun v mem => (head_fieldType typed mem).symm, Outcome.mapM_eq_ok.1 encoded⟩

/-- Five rows, whose identifiers fall into blocks of two. -/
def readings : Source :=
  ⟨⟨"r", ⟨[⟨"id", .long, true⟩, ⟨"v", .long, false⟩]⟩,
    [(1, 10), (2, 12), (3, 20), (4, 25), (5, 7)].map fun (id, v) => ⟨[Long.toBytes id, Long.toBytes v]⟩, false⟩,
    none, none⟩

/-- `oph_max(v) - oph_min(v) + id` -/
def spread : Expr :=
  .binary (.binary (.call "oph_max" [.variable "v"]) .sub (.call "oph_min" [.variable "v"])) .add (.variable "id")

/-- The identifier that counts is the last one of the block: 2 + 2, 5 + 4 and 0 + 5. -/
theorem exprColumn_eq_rollUp_spread :
    ∃ groups column,
      Group.ofSelection ⟨.builtin, [], 0⟩ [readings] (.full 5) (.call "oph_id" [.variable "id", .literal (.long 2)]) =
        .ok groups ∧
      groups = [⟨"1", [0, 1]⟩, ⟨"2", [2, 3]⟩, ⟨"3", [4]⟩] ∧
      exprColumn ⟨.builtin, [], 0⟩ [readings] (.full 5) (some groups) false "s" spread = .ok column ∧
      column.cells = [(Binary64.ofInt 4).toBytes, (Binary64.ofInt 9).toBytes, (Binary64.ofInt 5).toBytes] ∧
      ∃ values,
        List.Forall₂ (fun g v => g.rollUp ⟨.builtin, [], 0⟩ [readings] (.full 5) spread = .ok v ∧
          ∀ sources' selection', g.SameRows [] spread [readings] (.full 5) sources' selection' →
            g.rollUp ⟨.builtin, [], 0⟩ sources' selection' spread = .ok v) groups values ∧
        column.field.name = "s" ∧
        List.Forall₂ (fun v cell => v.fieldType = column.field.type ∧ Cell.encode column.field.type v = .ok cell)
          values column.cells := by
  have grouped : Group.ofSelection ⟨.builtin, [], 0⟩ [readings] (.full 5)
      (.call "oph_id" [.variable "id", .literal (.long 2)]) = .ok [⟨"1", [0, 1]⟩, ⟨"2", [2, 3]⟩, ⟨"3", [4]⟩] := by
    decide +kernel
  have made : exprColumn ⟨.builtin, [], 0⟩ [readings] (.full 5) (some [⟨"1", [0, 1]⟩, ⟨"2", [2, 3]⟩, ⟨"3", [4]⟩]) false
      "s" spread = .ok ⟨⟨"s", .real, false⟩,
        [(Binary64.ofInt 4).toBytes, (Binary64.ofInt 9).toBytes, (Binary64.ofInt 5).toBytes]⟩ := by
    decide +kernel
  exact ⟨_, _, grouped, rfl, made, rfl,
    exprColumn_eq_rollUp rfl (by decide +kernel) (by decide +kernel) (Group.members_ne_nil grouped) made⟩

end Projection

end FragmentEngine
