import FragmentEngine.Proofs.Select.PlainColumn
/-!
# Groups of one entry

Without groups every entry is a group by itself, and it is the same with groups of one member each. There an expression
shows its value at every entry, with aggregates or without. An aggregate of aggregates has values nowhere else: as soon
as a group has several members it is refused.
-/

namespace FragmentEngine.Projection

variable {context : Context} {sources : List Source} {selection : Selection} {binder : RowBinder} {e : Expr}
  {groups : List Group} {keyed : Bool} {name : String}

/-! ## Visits -/

/-- A visit to a group of its own gives the value at its entry. -/
theorem givesValue_alone (bound : RowBinder.bind e sources context.args = .ok binder) {v : Visit}
    (starts : v.starts = true) (last : v.last = true) : GivesValue context sources selection binder e v := by
  refine givesValue_of_evalRow bound fun t accumulators _ => ?_
  rw [starts, last, if_pos rfl]
  exact e.evalRow_alone t

/-- Without groups an expression shows its value at every entry. -/
theorem exprColumn_ungrouped (context : Context) (sources : List Source) (selection : Selection) (keyed : Bool)
    (name : String) (e : Expr) :
    exprColumn context sources selection none keyed name e =
      (Column.expr e).shownAt context sources selection name (List.range selection.size) := by
  refine exprColumn_eq_shownAt fun binder bound v visited => ?_
  obtain ⟨k, -, rfl⟩ := List.mem_map.1 visited
  exact givesValue_alone bound rfl rfl

/-- A group of one member is visited once. -/
theorem visits_single (single : ∀ g ∈ groups, g.members.length = 1) (lastOnly : Bool) {v : Visit}
    (visited : v ∈ visits selection (some groups) lastOnly) : v.starts = true ∧ v.last = true := by
  obtain ⟨g, hg, visited⟩ := List.mem_flatMap.1 visited
  obtain ⟨k, only⟩ := List.length_eq_one_iff.1 (single g hg)
  rw [only] at visited
  cases lastOnly <;> simp_all [Visit.all, Visit.lastOnly]

theorem shownEntries_single (selection : Selection) (single : ∀ g ∈ groups, g.members.length = 1) (lastOnly : Bool) :
    shownEntries selection (some groups) lastOnly = groups.flatMap Group.members := by
  cases lastOnly with
  | false => rfl
  | true =>
    simp only [shownEntries, if_true, List.filterMap_eq_flatMap_toList]
    refine List.flatMap_congr fun g hg => ?_
    obtain ⟨k, only⟩ := List.length_eq_one_iff.1 (single g hg)
    rw [only]
    rfl

/-- With groups of one member an expression shows its value at every member. -/
theorem exprColumn_single (single : ∀ g ∈ groups, g.members.length = 1) :
    exprColumn context sources selection (some groups) keyed name e =
      (Column.expr e).shownAt context sources selection name (groups.flatMap Group.members) := by
  rw [← shownEntries_single selection single]
  refine exprColumn_eq_shownAt fun binder bound v visited => ?_
  obtain ⟨starts, last⟩ := visits_single single _ visited
  exact givesValue_alone bound starts last

/-! ## Nested aggregates -/

/-- Visits succeed only if each of them does. -/
theorem exists_visit_of_mapM {vs : List Visit} {g : GroupEvaluator} {r : List (Option Value) × GroupEvaluator}
    (same : g.expr = e) (h : (vs.mapM (visit context sources selection binder)).run g = .ok r) {v : Visit}
    (visited : v ∈ vs) : ∃ g' r', g'.expr = e ∧ (visit context sources selection binder v).run g' = .ok r' := by
  induction vs generalizing g r with
  | nil => cases visited
  | cons first vs ih =>
    rw [List.mapM_cons, StateT.run_bind] at h
    obtain ⟨r₁, begun, h⟩ := Outcome.bind_eq_ok.1 h
    rcases List.mem_cons.1 visited with rfl | visited
    · exact ⟨g, r₁, same, begun⟩
    · rw [StateT.run_bind] at h
      obtain ⟨r₂, others, -⟩ := Outcome.bind_eq_ok.1 h
      obtain ⟨t, em, s, -, -, rfl⟩ := visit_eq_ok begun
      exact ih (g := ⟨g.expr, s.accumulators, first.last⟩) same others visited

/-- Nested aggregates are refused in a group of several members. -/
theorem exprColumn_refused (nested : e.isFlat context.registry = false) (several : ∃ g ∈ groups, 2 ≤ g.members.length) :
    ∃ error, exprColumn context sources selection (some groups) keyed name e = .error error := by
  cases made : exprColumn context sources selection (some groups) keyed name e with
  | error error => exact ⟨error, rfl⟩
  | ok data =>
    have aggregating : e.isAggregating context.registry = true := by
      by_contra plain
      rw [Expr.isFlat_of_plain e ((Bool.not_eq_true _).mp plain)] at nested
      cases nested
    obtain ⟨binder, bound, made⟩ := Outcome.bind_eq_ok.1 made
    obtain ⟨emitted, visited, -⟩ := Outcome.bind_eq_ok.1 made
    rw [aggregating, Bool.not_true, Bool.and_false, StateT.run'_eq] at visited
    obtain ⟨r, visited, -⟩ := Outcome.map_eq_ok.1 visited
    -- the first member of a group of several is not the last
    obtain ⟨g, hg, several⟩ := several
    obtain ⟨k, k', members, split⟩ : ∃ k k' members, g.members = k :: k' :: members := by
      match g.members, several with
      | k :: k' :: members, _ => exact ⟨k, k', members, rfl⟩
    have early : (⟨true, false, k⟩ : Visit) ∈ visits selection (some groups) false := by
      refine List.mem_flatMap.2 ⟨g, hg, ?_⟩
      simp [Visit.all, split]
    obtain ⟨g', r', rfl, done⟩ := exists_visit_of_mapM (e := e) rfl visited early
    obtain ⟨t, em, s, table, evaluated, -⟩ := visit_eq_ok done
    rw [← (RowBinder.describes_of_table bound table).1, Expr.isFlat_of_ends _ evaluated] at nested
    cases nested

/-- Nested aggregates are refused before the last row of a group, and so wherever a group has several members. On the
last row nothing is refused for being nested: a row by itself is rolled up, the inner call first, and that is what a
column over groups of one member shows. -/
theorem nested_refused_before_last (builtin : context.registry = .builtin) (nested : e.isFlat .builtin = false) :
    (∀ g : GroupEvaluator, g.expr = e → ∀ t : SymbolTable, t.registry = .builtin →
      (g.lastRow = false → ∃ error, (g.row t).1 = .error error) ∧
      (g.lastRow = true → ∀ f, (g.row t).1 ≠ .error (.exec (.nestedAggregate f))) ∧
      e.evaluate t = e.rollUp [t] t) ∧
    ∀ groups keyed name,
      ((∃ g ∈ groups, 2 ≤ g.members.length) →
        ∃ error, exprColumn context sources selection (some groups) keyed name e = .error error) ∧
      ((∀ g ∈ groups, g.members.length = 1) →
        exprColumn context sources selection (some groups) keyed name e =
          (Column.expr e).shownAt context sources selection name (groups.flatMap Group.members)) := by
  refine ⟨?_, fun groups keyed name => ⟨exprColumn_refused (builtin ▸ nested), exprColumn_single⟩⟩
  rintro ⟨_, accumulators, lastRow⟩ rfl t registry
  refine ⟨?_, ?_, Expr.evaluate_eq_rollUp_singleton _ t⟩
  · rintro rfl
    exact Expr.exists_error_of_nested (registry ▸ nested) accumulators
  · rintro rfl f refused
    cases Expr.ofRow_of_last _ _ registry refused

/-- `oph_sum(oph_max(v))` -/
def sumOfMaximum : Expr := .call "oph_sum" [.call "oph_max" [.variable "v"]]

/-- A sum of maxima is refused for blocks of two readings. For each reading by itself it is the reading. -/
theorem nested_refused_before_last_sumOfMaximum :
    let context : Context := ⟨.builtin, [], 0⟩
    let column := fun groups => exprColumn context [readings] (.full 5) (some groups) false "s" sumOfMaximum
    sumOfMaximum.isFlat .builtin = false ∧
      (∃ error, column [⟨"1", [0, 1]⟩, ⟨"2", [2, 3]⟩, ⟨"3", [4]⟩] = .error error) ∧
      column [⟨"1", [0]⟩, ⟨"4", [3]⟩] =
        .ok ⟨⟨"s", .real, false⟩, [(Binary64.ofInt 10).toBytes, (Binary64.ofInt 25).toBytes]⟩ := by
  intro context column
  have nested : sumOfMaximum.isFlat .builtin = false := by decide +kernel
  have columns (groups : List Group) :
      ((∃ g ∈ groups, 2 ≤ g.members.length) → ∃ error, column groups = .error error) ∧
      ((∀ g ∈ groups, g.members.length = 1) →
        column groups = (Column.expr sumOfMaximum).shownAt context [readings] (.full 5) "s" (groups.flatMap Group.members)) :=
    (nested_refused_before_last rfl nested).2 groups false "s"
  refine ⟨nested, (columns _).1 ⟨⟨"1", [0, 1]⟩, by decide, by decide⟩, ?_⟩
  refine ((columns _).2 (by decide)).trans ?_
  decide +kernel

/-- A sum of a maximum is not refused for a single row, neither by itself nor as the last one of a group. -/
theorem sumOfMaximum_accepted :
    let t : SymbolTable := ⟨.builtin, [("v", .double (Binary64.ofInt 1))], 11⟩
    sumOfMaximum.isFlat .builtin = false ∧
      sumOfMaximum.evaluate t = .ok (.double (Binary64.ofInt 1)) ∧
      ((⟨sumOfMaximum, [], true⟩ : GroupEvaluator).row t).1 = .ok (.emit (.double (Binary64.ofInt 1))) := by
  decide +kernel

end FragmentEngine.Projection
