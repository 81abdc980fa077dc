import FragmentEngine.Engine.Result
import FragmentEngine.Proofs.Engine.ColumnNames
import FragmentEngine.Proofs.Expr.Names
/-!
# All columns of a fragment

A select of one fragment that names all of its columns, without anything else, copies them cell by cell. So its result
is that of the fragment itself.
-/

namespace FragmentEngine

/-! ## Results -/

/-- The result of a fragment depends on its columns and its records alone. -/
theorem QueryResult.ofFragment_congr {f g : Fragment} (hnames : g.schema.names = f.schema.names)
    (htypes : g.schema.types = f.schema.types) (hrecords : g.records = f.records) : ofFragment g = ofFragment f := by
  have hwidth : g.schema.width = f.schema.width := by
    simpa [Schema.names, Schema.width] using congrArg List.length hnames
  have hcount : g.rowCount = f.rowCount := congrArg List.length hrecords
  have hvalue (row : Nat) (hrow : row < f.rowCount) (column : Nat) (hcolumn : column < f.schema.width) :
      g.value row column = f.value row column := by
    have hfield := List.getElem?_eq_getElem hcolumn
    have htype : (g.schema.fields[column]?).map Field.type = some (f.schema.fields[column].type) := by
      simpa [Schema.types, hfield] using congrArg (·[column]?) htypes
    obtain ⟨field, hfield', hsame⟩ := Option.map_eq_some_iff.1 htype
    unfold Fragment.value
    rw [hrecords, List.getElem?_eq_getElem hrow, hfield, hfield']
    dsimp only
    rw [hsame]
  unfold ofFragment
  rw [hcount, hwidth, hnames]
  congr 1
  exact Outcome.mapM_congr fun row hrow => Outcome.mapM_congr fun column hcolumn =>
    hvalue row (List.mem_range.1 hrow) column (List.mem_range.1 hcolumn)

/-! ## Columns that are named -/

section

variable {s : Source} {name : String} {i : Nat} {field : Field}

/-- A name stands for the column of that name of the only source. -/
theorem Column.ofExpr_name (context : Context) (h : Token.isName name = true)
    (hi : s.fragment.schema.index? name = some i) :
    Column.ofExpr context [s] (.variable name) = .ok (.field 0 i) := by
  obtain ⟨c, rest, hs, hstart⟩ := Token.isName_head h
  have hplaceholder : Argument.placeholder? name.toList = none := by
    rw [hs]
    unfold Argument.placeholder?
    split
    · rename_i heq
      cases heq
      exact absurd hstart (by decide)
    · rfl
  have hbare : Text.splitLast '.' name.toList = none :=
    Text.splitLast_eq_none (Token.not_mem_of_isName (by decide) h)
  have hcolumn : s.fragment.column name = .ok i := by
    unfold Fragment.column
    rw [hi]
  simp only [Column.ofExpr, resolveVariable, resolveField, hplaceholder, hbare, hcolumn]
  rfl

end

namespace Fragment

variable {f : Fragment} {field : Field} {i : Nat}

/-- A column as a select copies it. -/
def columnData (f : Fragment) (field : Field) (i : Nat) : ColumnData :=
  ⟨⟨field.name, field.type, f.schema.idIndex? == some i⟩, f.records.map fun r => r.cells.getD i []⟩

/-- The first columns as a select copies them. -/
def columnsData (f : Fragment) (fields : List Field) : List ColumnData :=
  fields.zipIdx.map fun (field, i) => f.columnData field i

/-- Copies have the names and the types of the columns. -/
theorem map_columnsData {β : Type} (f : Fragment) (fields : List Field) (g : String → FieldType → β) :
    (f.columnsData fields).map (fun c => g c.field.name c.field.type) =
      fields.map fun field => g field.name field.type := by
  conv_rhs => rw [← List.zipIdx_map_fst 0 fields, List.map_map]
  unfold columnsData
  rw [List.map_map]
  rfl

theorem columnsData_concat (f : Fragment) (before : List Field) (field : Field) :
    f.columnsData (before ++ [field]) = f.columnsData before ++ [f.columnData field before.length] := by
  simp [columnsData, List.zipIdx_append]

/-- No column before the identifier column is flagged. -/
theorem flag_columnData (f : Fragment) (before : List Field) (field : Field) :
    ((f.columnData field before.length).field.identifier && !(f.columnsData before).any (·.field.identifier)) =
      (f.columnData field before.length).field.identifier := by
  by_cases hid : f.schema.idIndex? = some before.length
  · have hnone : (f.columnsData before).any (·.field.identifier) = false := by
      refine List.any_eq_false.2 fun c hc => ?_
      obtain ⟨⟨field', j⟩, hmem, rfl⟩ := List.mem_map.1 hc
      have hj : j < before.length := by simpa using (List.mem_zipIdx hmem).2.1
      simp [columnData, hid, Nat.ne_of_gt hj]
    rw [hnone, Bool.not_false, Bool.and_true]
  · have hflag : (f.columnData field before.length).field.identifier = false := by simpa [columnData] using hid
    rw [hflag, Bool.false_and]

/-- Every record has a cell for each column. -/
def Rectangular (f : Fragment) : Prop := ∀ r ∈ f.records, r.width = f.schema.width

theorem WellFormed.rectangular (h : f.WellFormed) : f.Rectangular := fun r hr => (h.records r hr).length_eq.symm

theorem copiedCell_eq (h : f.Rectangular) {row : Nat} (hrow : row < f.records.length) (hi : i < f.schema.width) :
    Projection.copiedCell f row i = .ok (f.records[row].cells.getD i []) := by
  have hcell : i < f.records[row].cells.length := by
    rw [← Record.width, h _ (List.getElem_mem hrow)]
    exact hi
  unfold Projection.copiedCell Record.cell
  rw [List.getElem?_eq_getElem hrow]
  simp [hcell]

end Fragment

namespace Projection

variable {p : Projection} {s : Source} {field : Field} {i : Nat}

/-- A column of the only source, all of whose rows are selected, is copied. -/
theorem fieldColumn_full (hp : p.sequentialId = none) (h : s.fragment.Rectangular) (keyed : Bool)
    (hfield : s.fragment.schema.fields[i]? = some field) :
    p.fieldColumn [s] (.full s.fragment.rowCount) none keyed 0 i = .ok (s.fragment.columnData field i) := by
  have hi : i < s.fragment.schema.width := (List.getElem?_eq_some_iff.1 hfield).1
  unfold fieldColumn
  simp only [List.getElem?_cons_zero, hfield, hp]
  refine Outcome.bind_eq_ok.2 ⟨s.fragment.records.map fun r => r.cells.getD i [], ?_, rfl⟩
  refine Outcome.mapM_eq_ok.2 (List.forall₂_iff_get.2 ⟨?_, fun k hk hk' => ?_⟩)
  · simp [shownEntries, Selection.size, Selection.full, Fragment.rowCount]
  · have hrow : k < s.fragment.records.length := by simpa using hk'
    simpa [shownEntries, Selection.size, Selection.full, Selection.row, Fragment.rowCount, hrow] using
      Fragment.copiedCell_eq h hrow hi

theorem column_name (context : Context) (hp : p.sequentialId = none) (h : s.fragment.Rectangular)
    (hnames : s.fragment.schema.names.Nodup) (hfield : s.fragment.schema.fields[i]? = some field)
    (hname : Token.isName field.name = true) (expected : Nat) :
    p.column context [s] (.full s.fragment.rowCount) none expected field.name =
      .ok (s.fragment.columnData field i) := by
  have hi : i < s.fragment.schema.names.length := by
    simpa [Schema.names] using (List.getElem?_eq_some_iff.1 hfield).1
  have hget : s.fragment.schema.names[i] = field.name := by
    rw [← Option.some.injEq, ← List.getElem?_eq_getElem hi, Schema.names, List.getElem?_map, hfield]
    rfl
  have hindex : s.fragment.schema.index? field.name = some i := by
    have hfinds := Schema.findsAll_iff_nodup.2 hnames i hi
    rwa [hget] at hfinds
  unfold column
  rw [Expr.parse_name hname, Outcome.ok_bind, Column.ofExpr_name context hname hindex, Outcome.ok_bind]
  exact fieldColumn_full hp h _ hfield

/-- The next column of the only source is copied after those before it. -/
theorem addColumn_next (context : Context) (hp : p.sequentialId = none) (h : s.fragment.Rectangular)
    (hnames : s.fragment.schema.names.Nodup) {before after : List Field}
    (hfields : s.fragment.schema.fields = before ++ field :: after) (hname : Token.isName field.name = true) :
    p.addColumn context [s] (.full s.fragment.rowCount) none s.fragment.rowCount (s.fragment.columnsData before)
      field.name none = .ok (s.fragment.columnsData (before ++ [field])) := by
  have hfield : s.fragment.schema.fields[before.length]? = some field := by simp [hfields]
  have hlength : (s.fragment.columnData field before.length).cells.length = s.fragment.rowCount := by
    simp [Fragment.columnData, Fragment.rowCount]
  have hnew : field.name ∉ (s.fragment.columnsData before).map (·.field.name) := by
    rw [s.fragment.map_columnsData before fun name _ => name]
    rw [Schema.names, hfields, List.map_append, List.map_cons] at hnames
    exact fun hmem => (List.nodup_append.1 hnames).2.2 _ hmem _ List.mem_cons_self rfl
  unfold addColumn
  rw [column_name context hp h hnames hfield hname, Outcome.ok_bind]
  dsimp only
  rw [if_neg (not_not.2 hlength)]
  simp only [Option.getD_none]
  rw [if_neg (show (s.fragment.columnData field before.length).field.name ∉ _ from hnew), s.fragment.flag_columnData,
    s.fragment.columnsData_concat]
  rfl

/-- All columns are copied one after the other. -/
theorem foldlM_addColumn (context : Context) (hp : p.sequentialId = none) (haliases : p.aliases = [])
    (h : s.fragment.Rectangular) (hnames : s.fragment.schema.names.Nodup) (before after : List Field)
    (hfields : s.fragment.schema.fields = before ++ after) (hplain : ∀ field ∈ after, Token.isName field.name = true) :
    ((after.map Field.name).zipIdx before.length).foldlM (fun done (text, i) =>
      p.addColumn context [s] (.full s.fragment.rowCount) none s.fragment.rowCount done text p.aliases[i]?)
      (s.fragment.columnsData before) = .ok (s.fragment.columnsData s.fragment.schema.fields) := by
  induction after generalizing before with
  | nil =>
    rw [hfields, List.append_nil]
    rfl
  | cons field after ih =>
    obtain ⟨hname, hplain⟩ := List.forall_mem_cons.1 hplain
    have hnext := ih (before ++ [field]) (by rw [hfields, List.append_assoc]; rfl) hplain
    rw [List.length_append] at hnext
    have hadd : p.addColumn context [s] (.full s.fragment.rowCount) none s.fragment.rowCount
        (s.fragment.columnsData before) field.name p.aliases[before.length]? =
        .ok (s.fragment.columnsData (before ++ [field])) := by
      rw [haliases]
      exact addColumn_next context hp h hnames hfields hname
    rw [List.map_cons, List.zipIdx_cons, List.foldlM_cons]
    dsimp only
    rw [hadd, Outcome.ok_bind]
    exact hnext

/-- What is assembled from all columns of a fragment has its records. -/
theorem records_assemble {f : Fragment} (h : f.Rectangular) (name : String) :
    (assemble name f.rowCount (f.columnsData f.schema.fields)).records = f.records := by
  refine List.ext_getElem (by simp [assemble, Fragment.rowCount]) fun row hrow hrow' => ?_
  have hcells : (f.columnsData f.schema.fields).map (fun c => c.cells.getD row []) = f.records[row].cells := by
    refine List.ext_getElem ?_ fun i hi hi' => ?_
    · simpa [Fragment.columnsData, Record.width, Schema.width] using (h _ (List.getElem_mem hrow')).symm
    · simp [Fragment.columnsData, Fragment.columnData, hrow', hi']
  simp only [assemble, List.getElem_map, List.getElem_range, hcells]

/-- All columns of the only source, in order and with nothing else, give what it holds. -/
theorem project_all (context : Context) (hp : p.sequentialId = none) (haliases : p.aliases = [])
    (hfields : p.fields = s.fragment.schema.names) (h : s.fragment.Rectangular)
    (hnames : s.fragment.schema.names.Nodup) (hplain : ∀ name ∈ s.fragment.schema.names, Token.isName name = true)
    (hne : s.fragment.schema.names ≠ []) : ∃ g, p.project context [s] (.full s.fragment.rowCount) none = .ok g ∧
      QueryResult.ofFragment g = QueryResult.ofFragment s.fragment := by
  have hcolumns := foldlM_addColumn context hp haliases h hnames [] s.fragment.schema.fields rfl fun field hfield =>
    hplain field.name (List.mem_map_of_mem hfield)
  refine ⟨assemble p.name s.fragment.rowCount (s.fragment.columnsData s.fragment.schema.fields), ?_, ?_⟩
  · have hexpected : (Selection.full s.fragment.rowCount).size = s.fragment.rowCount := by
      simp [Selection.size, Selection.full]
    have hempty : p.fields.isEmpty = false := by
      rw [hfields]
      exact List.isEmpty_eq_false_iff.2 hne
    unfold project
    rw [hempty, haliases, hfields]
    simp only [Option.map_none, Option.getD_none, hexpected]
    rw [haliases] at hcolumns
    exact Outcome.bind_eq_ok.2 ⟨_, hcolumns, rfl⟩
  · refine QueryResult.ofFragment_congr ?_ ?_ (records_assemble h p.name)
    · exact List.map_map.trans (s.fragment.map_columnsData s.fragment.schema.fields fun name _ => name)
    · exact List.map_map.trans (s.fragment.map_columnsData s.fragment.schema.fields fun _ type => type)

/-- The name of the output has no influence on anything else. -/
theorem project_named (p : Projection) (name : String) (context : Context) (sources : List Source)
    (selection : Selection) (groups : Option (List Group)) :
    { p with name := name }.project context sources selection groups =
      (p.project context sources selection groups).map fun f => { f with name := name } := by
  unfold project
  dsimp only
  split
  · rfl
  · split
    · rfl
    · rw [Outcome.map_bind]
      rfl

end Projection

/-! ## Selects -/

namespace SelectRequest

/-- The select of columns by their names, with nothing else. -/
def all (name : String) (columns : List String) : SelectRequest := ⟨name, columns, [], none, [], none, none, none⟩

/-- A select of all columns of a fragment has the result of the fragment itself. -/
theorem execute_all {s : Source} (context : Context) (name : String) (h : s.fragment.Rectangular)
    (hnames : s.fragment.schema.names.Nodup) (hplain : ∀ n ∈ s.fragment.schema.names, Token.isName n = true)
    (hne : s.fragment.schema.names ≠ []) : ∃ g, (all name s.fragment.schema.names).execute context [s] = .ok g ∧
      QueryResult.ofFragment g = QueryResult.ofFragment s.fragment :=
  Projection.project_all (p := ⟨name, s.fragment.schema.names, [], none, none⟩) context rfl rfl rfl h hnames hplain hne

theorem execute_named (r : SelectRequest) (name : String) (context : Context) (sources : List Source) :
    { r with name := name }.execute context sources =
      (r.execute context sources).map fun f => { f with name := name } := by
  unfold execute
  simp only [Outcome.map_bind, ← Projection.project_named]
  rfl

end SelectRequest

end FragmentEngine
