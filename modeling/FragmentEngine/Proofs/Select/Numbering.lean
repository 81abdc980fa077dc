import FragmentEngine.Proofs.Select.GroupedColumn
import FragmentEngine.Proofs.Select.PlainColumn
import FragmentEngine.Proofs.Select.Projected
/-!
# Numbered identifiers

A select that numbers identifiers shows what it shows without numbering, but for the columns that are plain references
to an identifier column: these hold the numbers from the base on, row by row. It fails only if it has such a column and
the last of these numbers is not a long.
-/

namespace FragmentEngine

/-- The identifier column, if there is one, has type LONG. -/
def Schema.LongIdentifier (s : Schema) : Prop :=
  ∀ column field, s.idIndex? = some column → s.fields[column]? = some field → field.type = .long

/-- A field text that is a plain reference to the identifier column of a source. -/
def NamesIdentifier (context : Context) (sources : List Source) (text : String) : Prop :=
  ∃ name source column input, Expr.parse text = .ok (.variable name) ∧
    resolveVariable name sources context.args = .ok (.field source column) ∧ sources[source]? = some input ∧
    input.fragment.schema.idIndex? = some column

/-- A fragment `g` is `f` with the columns whose texts name identifiers numbered from `base` on, row by row. -/
structure Renumbers (context : Context) (sources : List Source) (texts : List String) (base : Long) (f g : Fragment) :
    Prop where
  name : g.name = f.name
  schema : g.schema = f.schema
  rowCount : g.rowCount = f.rowCount
  numbered : ∀ i text, texts[i]? = some text → NamesIdentifier context sources text → ∀ row < f.rowCount,
    ∃ id : Long, id.toInt = base.toInt + row ∧ g.value row i = .ok (.long id)
  copied : ∀ i text, texts[i]? = some text → ¬NamesIdentifier context sources text → ∀ row,
    Projection.copiedCell g row i = Projection.copiedCell f row i

namespace Projection

variable {p : Projection} {context : Context} {sources : List Source} {selection : Selection}
  {groups : Option (List Group)} {keyed : Bool} {expected : Nat} {text : String} {data : ColumnData}
  {done done' columns : List ColumnData} {f : Fragment} {base : Long}

/-! ## Cells -/

/-- The cells of rows that are numbered from `base` on. -/
def numberedCells (base : Long) (rows : Nat) : Except Error (List Bytes) := (List.range rows).mapM (sequentialCell base)

/-- All rows have a number, or that of the last one is not a long. -/
theorem numberedCells_cases (base : Long) (rows : Nat) :
    (∃ cells, numberedCells base rows = .ok cells ∧ cells.length = rows ∧
      ∀ row < rows, ∃ id : Long, id.toInt = base.toInt + row ∧ cells[row]? = some id.toBytes) ∨
    numberedCells base rows = .error (.exec .sequentialOverflow) ∧ Long.greatest < base.toInt + (rows - 1 : Int) := by
  have least := Long.least_le_toInt base
  cases made : numberedCells base rows with
  | ok cells =>
    obtain ⟨length, numbered⟩ := Outcome.mapM_range_eq_ok.1 made
    refine .inl ⟨cells, rfl, length, fun row lt => ?_⟩
    have here := numbered row (length ▸ lt)
    unfold sequentialCell at here
    split at here
    next id found =>
      refine ⟨id, Long.ofInt?_eq_some found, ?_⟩
      rw [List.getElem?_eq_getElem (length ▸ lt), Except.ok.inj here]
    next => cases here
  | error cause =>
    obtain ⟨row, mem, failed⟩ := Outcome.exists_of_mapM_eq_error made
    have lt := List.mem_range.1 mem
    unfold sequentialCell at failed
    split at failed
    next => cases failed
    next missing =>
      cases failed
      refine .inr ⟨rfl, ?_⟩
      by_contra within
      unfold Long.ofInt? at missing
      rw [if_pos (by omega)] at missing
      cases missing

/-- A number is read back from its cell. -/
theorem decode_toBytes (id : Long) : Cell.decode .long id.toBytes = .ok (.long id) := by
  unfold Cell.decode
  rw [if_pos (Long.length_toBytes id), Long.ofBytes_toBytes]

/-! ## Columns -/

/-- An identifier column is numbered instead of being copied, as many rows of it. -/
theorem fieldColumn_numbered (unnumbered : p.sequentialId = none) {source column : Nat} {input : Source}
    (known : sources[source]? = some input) (identifier : input.fragment.schema.idIndex? = some column)
    (h : p.fieldColumn sources selection groups keyed source column = .ok data) (base : Long) :
    { p with sequentialId := some base }.fieldColumn sources selection groups keyed source column =
      (numberedCells base data.cells.length).map fun cells => ⟨data.field, cells⟩ := by
  rw [fieldColumn_plain ⟨.builtin, [], 0⟩ "" unnumbered] at h
  have length := Column.length_of_shownAt h
  obtain ⟨input', field, cells, known', found, -, rfl⟩ := Column.shownAt_field_eq_ok.1 h
  cases known.symm.trans known'
  have numbered : ((shownEntries selection groups keyed).zipIdx.mapM fun entry => sequentialCell base entry.2) =
      numberedCells base cells.length := by
    rw [numberedCells, length, List.range_eq_range', ← List.zipIdx_map_snd, List.mapM_map]
    rfl
  have flagged : (input.fragment.schema.idIndex? == some column) = true := by rw [identifier, beq_self_eq_true]
  simp only [fieldColumn, known, found, flagged, numbered]
  cases numberedCells base cells.length <;> rfl

/-- A column other than the identifier column is copied all the same. -/
theorem fieldColumn_copied (unnumbered : p.sequentialId = none) {source column : Nat}
    (other : ∀ input, sources[source]? = some input → input.fragment.schema.idIndex? ≠ some column) (base : Long) :
    { p with sequentialId := some base }.fieldColumn sources selection groups keyed source column =
      p.fieldColumn sources selection groups keyed source column := by
  unfold fieldColumn
  split
  · rfl
  next input known =>
    have unflagged : (input.fragment.schema.idIndex? == some column) = false := beq_false_of_ne (other input known)
    simp only [unflagged, unnumbered]

theorem column_eq_fieldColumn {name : String} {source column : Nat} (parsed : Expr.parse text = .ok (.variable name))
    (resolved : resolveVariable name sources context.args = .ok (.field source column)) :
    p.column context sources selection groups expected text =
      p.fieldColumn sources selection groups (p.groupBy == some (.variable name)) source column := by
  have shown : Column.ofExpr context sources (.variable name) = .ok (.field source column) :=
    Outcome.bind_eq_ok.2 ⟨_, resolved, rfl⟩
  unfold Projection.column
  rw [parsed, Outcome.ok_bind, shown, Outcome.ok_bind]

/-- An identifier column is shown with the type it has in its source. -/
theorem type_of_namesIdentifier (long : ∀ s ∈ sources, s.fragment.schema.LongIdentifier)
    (unnumbered : p.sequentialId = none) (names : NamesIdentifier context sources text)
    (h : p.column context sources selection groups expected text = .ok data) : data.field.type = .long := by
  obtain ⟨name, source, column, input, parsed, resolved, known, identifier⟩ := names
  rw [column_eq_fieldColumn parsed resolved, fieldColumn_plain context "" unnumbered] at h
  obtain ⟨input', field, cells, known', found, -, rfl⟩ := Column.shownAt_field_eq_ok.1 h
  cases known.symm.trans known'
  exact long input (List.mem_of_getElem? known) column field identifier found

theorem column_numbered (unnumbered : p.sequentialId = none) (names : NamesIdentifier context sources text)
    (h : p.column context sources selection groups expected text = .ok data) (base : Long) :
    { p with sequentialId := some base }.column context sources selection groups expected text =
      (numberedCells base data.cells.length).map fun cells => ⟨data.field, cells⟩ := by
  obtain ⟨name, source, column, input, parsed, resolved, known, identifier⟩ := names
  rw [column_eq_fieldColumn parsed resolved] at h ⊢
  exact fieldColumn_numbered unnumbered known identifier h base

/-- Literals, arguments and expressions are not numbered, nor is a column that is not an identifier column. -/
theorem column_unnumbered (unnumbered : p.sequentialId = none) (other : ¬NamesIdentifier context sources text)
    (base : Long) : { p with sequentialId := some base }.column context sources selection groups expected text =
      p.column context sources selection groups expected text := by
  unfold Projection.column
  cases parsed : Expr.parse text with
  | error _ => rfl
  | ok e =>
    rw [Outcome.ok_bind, Outcome.ok_bind]
    cases shown : Column.ofExpr context sources e with
    | error _ => rfl
    | ok c =>
      rw [Outcome.ok_bind, Outcome.ok_bind]
      cases c with
      | literal _ | argument _ | expr _ => rfl
      | field source column =>
        cases Column.shows_of_ofExpr shown with
        | field resolved =>
          refine fieldColumn_copied unnumbered (fun input known identifier => other ?_) base
          exact ⟨_, source, column, input, parsed, resolved, known, identifier⟩

/-- A column with a number for each row is refused, since the last number is not a long. -/
structure Exhausted (context : Context) (sources : List Source) (base : Long) (rows : Nat) (text : String) (e : Error) :
    Prop where
  cause : e = .exec .sequentialOverflow
  names : NamesIdentifier context sources text
  beyond : Long.greatest < base.toInt + (rows - 1 : Int)

/-- Columns of the same names, types and flags. -/
def SameFields (done done' : List ColumnData) : Prop := done'.map ColumnData.field = done.map ColumnData.field

/-- With numbering a column is added as it is without, or the numbers do not suffice for it. -/
theorem addColumn_numbered (unnumbered : p.sequentialId = none) {alias? : Option String} {next : List ColumnData}
    (same : SameFields done done')
    (h : p.addColumn context sources selection groups expected done text alias? = .ok next) (base : Long) :
    (∃ next', { p with sequentialId := some base }.addColumn context sources selection groups expected done' text alias? =
        .ok next' ∧ SameFields next next') ∨
      ∃ e, { p with sequentialId := some base }.addColumn context sources selection groups expected done' text alias? =
        .error e ∧ Exhausted context sources base expected text e := by
  have names : done'.map (·.field.name) = done.map (·.field.name) := by
    simpa only [List.map_map, Function.comp_def] using congrArg (List.map Field.name) same
  have flags : done'.any (·.field.identifier) = done.any (·.field.identifier) := by
    simpa only [List.any_map, Function.comp_def] using congrArg (List.any · Field.identifier) same
  obtain ⟨data, made, h⟩ := Outcome.bind_eq_ok.1 h
  dsimp only at h
  split at h
  · cases h
  next length =>
    rw [not_not] at length
    split at h
    · cases h
    next fresh =>
      cases h
      -- a column of the same field and length is added to columns of the same fields
      have added (cells : List Bytes) (enough : cells.length = expected)
          (made' : { p with sequentialId := some base }.column context sources selection groups expected text =
            .ok ⟨data.field, cells⟩) :
          ∃ next', { p with sequentialId := some base }.addColumn context sources selection groups expected done' text
              alias? = .ok next' ∧ SameFields (done ++ [⟨⟨alias?.getD data.field.name, data.field.type,
                data.field.identifier && !done.any (·.field.identifier)⟩, data.cells⟩]) next' := by
        unfold addColumn
        rw [made', Outcome.ok_bind]
        dsimp only
        rw [if_neg (not_not.2 enough), names, if_neg fresh, flags]
        refine ⟨_, rfl, ?_⟩
        unfold SameFields at same ⊢
        rw [List.map_append, List.map_append, same]
        rfl
      by_cases identifier : NamesIdentifier context sources text
      · have numbered := column_numbered unnumbered identifier made base
        rw [length] at numbered
        rcases numberedCells_cases base expected with ⟨cells, counted, enough, -⟩ | ⟨overflow, beyond⟩
        · rw [counted] at numbered
          exact .inl (added cells enough numbered)
        · rw [overflow] at numbered
          exact .inr ⟨_, addColumn_of_error numbered, rfl, identifier, beyond⟩
      · exact .inl (added data.cells length ((column_unnumbered unnumbered identifier base).trans made))

/-! ## Outputs -/

/-- With numbering a projection makes columns of the same fields as without, or it fails for want of numbers. -/
theorem project_numbered (unnumbered : p.sequentialId = none)
    (h : p.project context sources selection groups = .ok f) (base : Long) :
    (∃ g, { p with sequentialId := some base }.project context sources selection groups = .ok g ∧
        g.schema = f.schema) ∨
      { p with sequentialId := some base }.project context sources selection groups =
        .error (.exec .sequentialOverflow) ∧
      Long.greatest < base.toInt + (f.rowCount - 1 : Int) ∧ ∃ text ∈ p.fields, NamesIdentifier context sources text := by
  unfold project at h ⊢
  dsimp only at h ⊢
  split at h
  · cases h
  next fields =>
    split at h
    · cases h
    next aliases =>
      obtain ⟨columns, made, h⟩ := Outcome.bind_eq_ok.1 h
      cases h
      rw [if_neg fields, if_neg aliases, rowCount_assemble]
      have step (done done' : List ColumnData) (field : String × Nat) (next : List ColumnData)
          (same : SameFields done done')
          (added : p.addColumn context sources selection groups ((groups.map List.length).getD selection.size) done
            field.1 p.aliases[field.2]? = .ok next) := addColumn_numbered unnumbered same added base
      rcases Outcome.foldlM_related_or step rfl made with ⟨columns', made', same⟩ |
        ⟨_, failed, field, mem, rfl, names, beyond⟩
      · exact .inl ⟨_, Outcome.bind_eq_ok.2 ⟨columns', made', rfl⟩, congrArg Schema.mk same⟩
      · refine .inr ⟨Outcome.bind_eq_error.2 (.inl failed), beyond, field.1, ?_, names⟩
        exact (List.mem_zipIdx' mem).2 ▸ List.getElem_mem _

/-- The cell of an assembled fragment is that of its column. -/
theorem copiedCell_assemble {name : String} {rows i : Nat} {c : ColumnData} (found : columns[i]? = some c) (row : Nat) :
    copiedCell (assemble name rows columns) row i =
      if row < rows then .ok (c.cells.getD row []) else .error (.exec (.rowOutOfRange row name)) := by
  unfold copiedCell assemble
  by_cases lt : row < rows
  · simp [lt, Record.cell, found]
  · simp [lt]

/-- What a projection makes with numbering is numbered in the columns that name identifiers and nowhere else. -/
theorem renumbers_of_project (long : ∀ s ∈ sources, s.fragment.schema.LongIdentifier)
    (unnumbered : p.sequentialId = none) {g : Fragment} (h : p.project context sources selection groups = .ok f)
    (h' : { p with sequentialId := some base }.project context sources selection groups = .ok g)
    (schema : g.schema = f.schema) : Renumbers context sources p.fields base f g := by
  obtain ⟨columns, made, rfl⟩ := columns_of_project h
  obtain ⟨columns', made', rfl⟩ := columns_of_project h'
  refine ⟨rfl, schema, by rw [rowCount_assemble, rowCount_assemble], fun i text field names row lt => ?_,
    fun i text field other row => ?_⟩
  · obtain ⟨c, -, data, made, length, -⟩ := Outcome.exists_getElem?_of_forall₂ made field
    obtain ⟨c', found, data', made', -, type, cells⟩ := Outcome.exists_getElem?_of_forall₂ made' field
    rw [column_numbered unnumbered names made base, length] at made'
    obtain ⟨all, numbered, rfl⟩ := Outcome.map_eq_ok.1 made'
    rw [rowCount_assemble] at lt
    rcases numberedCells_cases base ((groups.map List.length).getD selection.size) with
      ⟨_, counted, -, ids⟩ | ⟨overflow, -⟩
    · cases numbered.symm.trans counted
      obtain ⟨id, value, stored⟩ := ids row lt
      rw [show all = c'.cells from cells.symm] at stored
      refine ⟨id, value, (value_assemble lt found stored).trans ?_⟩
      rw [type, type_of_namesIdentifier long unnumbered names made, decode_toBytes]
    · cases numbered.symm.trans overflow
  · obtain ⟨c, found, data, made, -, -, cells⟩ := Outcome.exists_getElem?_of_forall₂ made field
    obtain ⟨c', found', data', made', -, -, cells'⟩ := Outcome.exists_getElem?_of_forall₂ made' field
    rw [column_unnumbered unnumbered other base] at made'
    cases made.symm.trans made'
    rw [copiedCell_assemble found, copiedCell_assemble found', cells, cells']

end Projection

/-! ## Selects -/

namespace SelectRequest

variable {r : SelectRequest} {context : Context} {sources : List Source} {f : Fragment}

/-- A select that succeeds without numbering does so with it, and shows the same but for the columns that are plain
references to an identifier column. It fails only if there is such a column and the number of its last row is not a
long. -/
theorem renumbers_of_execute (long : ∀ s ∈ sources, s.fragment.schema.LongIdentifier)
    (h : { r with sequentialId := none }.execute context sources = .ok f) (base : Long) :
    (∃ g, { r with sequentialId := some base }.execute context sources = .ok g ∧
        Renumbers context sources r.fields base f g) ∨
      { r with sequentialId := some base }.execute context sources = .error (.exec .sequentialOverflow) ∧
      Long.greatest < base.toInt + (f.rowCount - 1 : Int) ∧
      ∃ text ∈ r.fields, NamesIdentifier context sources text := by
  obtain ⟨condition, parsed, h⟩ := Outcome.bind_eq_ok.1 h
  obtain ⟨groupBy, grouped, h⟩ := Outcome.bind_eq_ok.1 h
  obtain ⟨selection, selected, h⟩ := Outcome.bind_eq_ok.1 h
  obtain ⟨groups, shared, h⟩ := Outcome.bind_eq_ok.1 h
  -- the entries are selected, ordered and grouped before any column is made
  have same : { r with sequentialId := some base }.execute context sources =
      { (⟨r.name, r.fields, r.aliases, none, groupBy⟩ : Projection) with sequentialId := some base }.project context
        sources selection groups := by
    have selected' : { r with sequentialId := some base }.selection context sources condition = .ok selection := selected
    unfold execute
    rw [parsed, Outcome.ok_bind, grouped, Outcome.ok_bind, selected', Outcome.ok_bind, shared, Outcome.ok_bind]
  rw [same]
  refine (Projection.project_numbered rfl h base).imp_left fun ⟨g, made, schema⟩ => ⟨g, made, ?_⟩
  exact Projection.renumbers_of_project long rfl h made schema

/-- The readings behind the second by value, with the identifier as a column and in an expression. -/
def lastReadings : SelectRequest where
  name := "out"
  fields := ["v", "id", "id + 0"]
  aliases := ["v", "id", "was"]
  condition := some "id > 2"
  group := []
  order := some "v"
  window := none
  sequentialId := none

/-- From 100 on the last row has number 102 in place of 4. It is chosen and ordered as before, and the expression still
has the value of the identifier. -/
theorem renumbers_of_execute_lastReadings :
    ∃ f g, lastReadings.execute ⟨.builtin, [], 0⟩ [Projection.readings] = .ok f ∧
      f.records = ([(7, 5), (20, 3), (25, 4)].map fun (v, id) =>
        ⟨[Long.toBytes v, Long.toBytes id, (Binary64.ofInt id.toInt).toBytes]⟩) ∧
      { lastReadings with sequentialId := some 100 }.execute ⟨.builtin, [], 0⟩ [Projection.readings] = .ok g ∧
      (∃ id : Long, id.toInt = 102 ∧ g.value 2 1 = .ok (.long id)) ∧
      Projection.copiedCell g 2 2 = .ok (Binary64.ofInt 4).toBytes := by
  let out : Fragment := ⟨"out", ⟨[⟨"v", .long, false⟩, ⟨"id", .long, true⟩, ⟨"was", .real, false⟩]⟩,
    [(7, 5), (20, 3), (25, 4)].map fun (v, id) =>
      ⟨[Long.toBytes v, Long.toBytes id, (Binary64.ofInt id.toInt).toBytes]⟩, false⟩
  have made : lastReadings.execute ⟨.builtin, [], 0⟩ [Projection.readings] = .ok out := by decide +kernel
  have long : ∀ s ∈ [Projection.readings], s.fragment.schema.LongIdentifier := by
    intro s mem column field identifier found
    cases List.mem_singleton.1 mem
    cases identifier
    cases found
    rfl
  have identifier : NamesIdentifier ⟨.builtin, [], 0⟩ [Projection.readings] "id" :=
    ⟨"id", 0, 0, Projection.readings, by decide +kernel, by decide +kernel, rfl, rfl⟩
  have computed : ¬NamesIdentifier ⟨.builtin, [], 0⟩ [Projection.readings] "id + 0" := by
    rintro ⟨name, _, _, _, parsed, -⟩
    have sum : Expr.parse "id + 0" = .ok (.binary (.variable "id") .add (.literal (.long 0))) := by decide +kernel
    cases sum.symm.trans parsed
  have within : ¬Long.greatest < (100 : Long).toInt + (out.rowCount - 1 : Int) := by decide +kernel
  have shown := renumbers_of_execute (r := lastReadings) long made 100
  rw [or_iff_left fun failed => within failed.2.1] at shown
  obtain ⟨g, numbered, same⟩ := shown
  obtain ⟨id, value, read⟩ := same.numbered 1 "id" rfl identifier 2 (by decide)
  have kept : Projection.copiedCell out 2 2 = .ok (Binary64.ofInt 4).toBytes := by decide +kernel
  refine ⟨out, g, made, rfl, numbered, ⟨id, value.trans (by decide +kernel), read⟩, ?_⟩
  exact (same.copied 2 "id + 0" rfl computed 2).trans kept

end SelectRequest

end FragmentEngine
