import FragmentEngine.Proofs.Select.Binding
import FragmentEngine.Select.Grouping
/-!
# Grouping reads identifiers only

Grouping refuses an expression that reads a column other than an identifier column before it looks at any row. So
sources that differ in their other columns only are grouped alike, and refused alike.
-/

namespace FragmentEngine

/-- Two sources differ in cells of columns other than the identifier column only: they go by the same names, and have
the same columns and, row by row, the same identifier cells. -/
structure Source.SameIdentifiers (s s' : Source) : Prop where
  name : s'.fragment.name = s.fragment.name
  aliasName : s'.alias? = s.alias?
  db : s'.db? = s.db?
  schema : s'.fragment.schema = s.fragment.schema
  cells : ∀ column, s.fragment.schema.idIndex? = some column →
    s'.fragment.records.map (·.cell column) = s.fragment.records.map (·.cell column)

namespace Source.SameIdentifiers

variable {s s' : Source}

theorem answersTo (h : SameIdentifiers s s') (qualifier : String) : s'.answersTo qualifier = s.answersTo qualifier := by
  unfold Source.answersTo
  rw [h.name, h.aliasName, h.db]

theorem column (h : SameIdentifiers s s') (name : String) : s'.fragment.column name = s.fragment.column name := by
  unfold Fragment.column
  rw [h.name, h.schema]

theorem idColumn (h : SameIdentifiers s s') : s'.fragment.idColumn = s.fragment.idColumn := by
  unfold Fragment.idColumn
  rw [h.name, h.schema]

/-- An identifier is read alike, also where it cannot be read. -/
theorem value (h : SameIdentifiers s s') {column : Nat} (id : s.fragment.idColumn = .ok column) (row : Nat) :
    s'.fragment.value row column = s.fragment.value row column := by
  have index : s.fragment.schema.idIndex? = some column := by
    unfold Fragment.idColumn at id
    split at id
    next found =>
      cases id
      exact found
    next => cases id
  have cell : (s'.fragment.records[row]?).map (·.cell column) = (s.fragment.records[row]?).map (·.cell column) := by
    rw [← List.getElem?_map, ← List.getElem?_map, h.cells column index]
  unfold Fragment.value
  rw [h.name, h.schema]
  cases first : s.fragment.records[row]? with
  | none =>
    rw [first, Option.map_none, Option.map_eq_none_iff] at cell
    rw [cell]
  | some r =>
    rw [first, Option.map_some, Option.map_eq_some_iff] at cell
    obtain ⟨r', second, same⟩ := cell
    rw [second]
    simp only [Record.value, same]

end Source.SameIdentifiers

/-! ## What names stand for -/

section

variable {sources sources' : List Source}

/-- A qualifier names sources at the same place. -/
theorem find?_sameIdentifiers (h : List.Forall₂ Source.SameIdentifiers sources sources') (qualifier : String)
    (n : Nat) :
    (∃ s s' i, (sources.zipIdx n).find? (fun (s, _) => s.answersTo qualifier) = some (s, i) ∧
        (sources'.zipIdx n).find? (fun (s, _) => s.answersTo qualifier) = some (s', i) ∧ s.SameIdentifiers s') ∨
      ((sources.zipIdx n).find? (fun (s, _) => s.answersTo qualifier) = none ∧
        (sources'.zipIdx n).find? (fun (s, _) => s.answersTo qualifier) = none) := by
  induction h generalizing n with
  | nil => exact .inr ⟨rfl, rfl⟩
  | cons same _ ih =>
    rw [List.zipIdx_cons, List.zipIdx_cons, List.find?_cons, List.find?_cons]
    dsimp only
    rw [same.answersTo]
    split
    · exact .inl ⟨_, _, n, rfl, rfl, same⟩
    · exact ih (n + 1)

theorem resolveField_sameIdentifiers (h : List.Forall₂ Source.SameIdentifiers sources sources') (name : String) :
    resolveField name sources' = resolveField name sources := by
  unfold resolveField
  split
  next qualifier field _ =>
    rcases find?_sameIdentifiers h (String.ofList qualifier) 0 with ⟨s, s', i, found, found', same⟩ | ⟨found, found'⟩
    · simp only [found, found', same.column]
    · simp only [found, found']
  next =>
    cases h with
    | nil => rfl
    | cons same rest =>
      cases rest with
      | nil => simp only [same.column]
      | cons _ rest => simp only [List.length_cons, rest.length_eq]

theorem bind_sameIdentifiers (h : List.Forall₂ Source.SameIdentifiers sources sources') (e : Expr)
    (args : List Argument) : RowBinder.bind e sources' args = RowBinder.bind e sources args := by
  simp only [RowBinder.bind, resolveVariable, resolveField_sameIdentifiers h]

/-! ## What grouping reads -/

namespace Group

theorem checkBinding_sameIdentifiers (h : List.Forall₂ Source.SameIdentifiers sources sources') :
    checkBinding sources' = checkBinding sources := by
  funext ⟨name, b⟩
  cases b with
  | argument v => rfl
  | field source column =>
    rcases Outcome.getElem?_of_forall₂ h source with ⟨s, s', here, there, same⟩ | ⟨here, there⟩
    · simp only [checkBinding, here, there, same.idColumn]
    · simp only [checkBinding, here, there]

/-- A binding that grouping admits is a constant or an identifier. -/
theorem value_sameIdentifiers (h : List.Forall₂ Source.SameIdentifiers sources sources') {b : String × Binding}
    (admitted : checkBinding sources b = .ok ()) (selection : Selection) (k : Nat) :
    RowBinder.value sources' selection k b.2 = RowBinder.value sources selection k b.2 := by
  obtain ⟨name, b⟩ := b
  cases b with
  | argument v => rfl
  | field source column =>
    rcases Outcome.getElem?_of_forall₂ h source with ⟨s, s', here, there, same⟩ | ⟨here, there⟩
    · simp only [checkBinding, here] at admitted
      obtain ⟨id, found, admitted⟩ := Outcome.bind_eq_ok.1 admitted
      split at admitted
      · cases admitted
      next identifier =>
        rw [not_not] at identifier
        simp only [RowBinder.value, here, there]
        exact same.value (identifier ▸ found) _
    · simp only [RowBinder.value, here, there]

/-- The table of an entry is made of admitted bindings only. -/
theorem table_sameIdentifiers (h : List.Forall₂ Source.SameIdentifiers sources sources') {binder : RowBinder}
    (admitted : binder.bindings.forM (checkBinding sources) = .ok ()) (context : Context) (selection : Selection)
    (k : Nat) : binder.table context sources' selection k = binder.table context sources selection k := by
  refine Outcome.foldlM_congr fun b hb t => ?_
  obtain ⟨name, binding⟩ := b
  exact congrArg (· >>= t.add name) (value_sameIdentifiers h (Outcome.forM_eq_ok.1 admitted _ hb) selection k)

/-- Whatever is in columns other than the identifiers, a selection is grouped alike or refused alike. -/
theorem ofSelection_sameIdentifiers {context : Context} {selection : Selection} {e : Expr}
    (h : List.Forall₂ Source.SameIdentifiers sources sources') :
    ofSelection context sources' selection e = ofSelection context sources selection e := by
  unfold ofSelection
  rw [bind_sameIdentifiers h, checkBinding_sameIdentifiers h]
  split
  · rfl
  refine congrArg (_ >>= ·) (funext fun binder => ?_)
  cases admitted : binder.bindings.forM (checkBinding sources) with
  | error _ => rfl
  | ok _ =>
    -- only now are rows read, and none but identifiers
    have keys : keyOf context sources' selection binder e = keyOf context sources selection binder e := by
      funext k
      unfold keyOf
      rw [table_sameIdentifiers h admitted]
    rw [keys]

/-- A source with identifiers 1 to 3 and a second column of given cells. -/
def withCells (cells : List Bytes) : Source :=
  ⟨⟨"f", ⟨[⟨"id", .long, false⟩, ⟨"v", .real, false⟩]⟩,
    ([1, 2, 3].zip cells).map fun (id, cell) => ⟨[Long.toBytes id, cell]⟩, false⟩, none, some "db"⟩

/-- Whatever the second column holds, if it can be read or not, identifiers 1 to 3 fall into the blocks of two, and
grouping by the second column is refused. -/
theorem ofSelection_sameIdentifiers_otherCells :
    let context : Context := ⟨.builtin, [], 0⟩
    let readable := [withCells [Binary64.zero.toBytes, Binary64.infinity.toBytes, Binary64.nan.toBytes]]
    let unreadable := [withCells [[], [1], [2, 3]]]
    let e : Expr := .call "oph_id" [.variable "db.f.id", .literal (.long 2)]
    List.Forall₂ Source.SameIdentifiers readable unreadable ∧
      ofSelection context readable (.full 3) e = .ok [⟨"1", [0, 1]⟩, ⟨"2", [2]⟩] ∧
      ofSelection context unreadable (.full 3) e = ofSelection context readable (.full 3) e ∧
      ofSelection context readable (.full 3) (.variable "v") = .error (.exec (.groupNotIdentifier "v")) ∧
      ofSelection context unreadable (.full 3) (.variable "v") =
        ofSelection context readable (.full 3) (.variable "v") := by
  intro context readable unreadable e
  have same : List.Forall₂ Source.SameIdentifiers readable unreadable := by
    refine .cons ⟨rfl, rfl, rfl, rfl, fun column identifier => ?_⟩ .nil
    obtain rfl : 0 = column := Option.some.inj identifier
    rfl
  refine ⟨same, ?_, ofSelection_sameIdentifiers same, ?_, ofSelection_sameIdentifiers same⟩
  · decide +kernel
  · decide +kernel

end Group

end

end FragmentEngine
