import FragmentEngine.Proofs.Fragment.WellFormed
import FragmentEngine.Select.Request
/-!
# Projected fragments

The output of a select has distinct column names whatever its sources are, and it is well-formed if they are: cells are
encoded from values, copied from a column of the same type or numbered anew in a LONG column.
-/

namespace FragmentEngine

/-! ## Columns -/

/-- All cells decode under the type of the column, which is LONG if it is flagged. -/
structure ColumnData.Sound (c : ColumnData) : Prop where
  cells : ∀ cell ∈ c.cells, Cell.Decodes c.field.type cell
  long : c.field.identifier = true → c.field.type = .long

namespace Projection

variable {p : Projection} {context : Context} {sources : List Source} {selection : Selection}
  {groups : Option (List Group)} {keyed : Bool} {expected source column : Nat} {name text : String}
  {data : ColumnData} {done columns : List ColumnData} {f : Fragment}

theorem sound_constantColumn {v : Value} {rows : Nat} (h : constantColumn name v rows = .ok data) : data.Sound := by
  obtain ⟨cell, hcell, h⟩ := Outcome.bind_eq_ok.1 h
  cases h
  refine ⟨fun cell' hmem => ?_, nofun⟩
  rw [List.eq_of_mem_replicate hmem]
  exact Cell.decodes_of_encode hcell

theorem sound_exprColumn {e : Expr} (h : exprColumn context sources selection groups keyed name e = .ok data) :
    data.Sound := by
  obtain ⟨binder, -, h⟩ := Outcome.bind_eq_ok.1 h
  obtain ⟨emitted, -, h⟩ := Outcome.bind_eq_ok.1 h
  obtain ⟨cells, hcells, h⟩ := Outcome.bind_eq_ok.1 h
  cases h
  refine ⟨fun cell hmem => ?_, nofun⟩
  obtain ⟨v, -, hcell⟩ := Outcome.exists_of_mem (Outcome.mapM_eq_ok.1 hcells) hmem
  exact Cell.decodes_of_encode hcell

theorem decodes_sequentialCell {base : Long} {row : Nat} {cell : Bytes} (h : sequentialCell base row = .ok cell) :
    Cell.Decodes .long cell := by
  unfold sequentialCell at h
  split at h <;> cases h
  exact Cell.decodes_of_length rfl (Long.length_toBytes _)

theorem decodes_copiedCell (hf : f.WellFormed) {field : Field} (hfield : f.schema.fields[column]? = some field)
    {row : Nat} {cell : Bytes} (h : copiedCell f row column = .ok cell) : Cell.Decodes field.type cell := by
  unfold copiedCell at h
  split at h
  · rename_i r hr
    obtain ⟨v, hv⟩ := (hf.records r (List.mem_of_getElem? hr)).value hfield
    rw [Record.value, h, Outcome.ok_bind] at hv
    exact ⟨v, hv⟩
  · cases h

theorem sound_fieldColumn (hsources : ∀ s ∈ sources, s.fragment.WellFormed)
    (h : p.fieldColumn sources selection groups keyed source column = .ok data) : data.Sound := by
  unfold fieldColumn at h
  split at h
  · cases h
  · rename_i input hinput
    have hinput := hsources input (List.mem_of_getElem? hinput)
    split at h
    · cases h
    · rename_i field hfield
      obtain ⟨cells, hcells, h⟩ := Outcome.bind_eq_ok.1 h
      cases h
      have hlong (hid : (input.fragment.schema.idIndex? == some column) = true) : field.type = .long :=
        hinput.flags.idIndex_long (by simpa using hid) hfield
      refine ⟨fun cell hmem => ?_, hlong⟩
      obtain ⟨⟨k, row⟩, -, hcell⟩ := Outcome.exists_of_mem (Outcome.mapM_eq_ok.1 hcells) hmem
      dsimp only at hcell ⊢
      split at hcell
      · rename_i hid
        rw [hlong hid]
        exact decodes_sequentialCell hcell
      · exact decodes_copiedCell hinput hfield hcell

theorem sound_column (hsources : ∀ s ∈ sources, s.fragment.WellFormed)
    (h : p.column context sources selection groups expected text = .ok data) : data.Sound := by
  obtain ⟨e, -, h⟩ := Outcome.bind_eq_ok.1 h
  obtain ⟨shown, -, h⟩ := Outcome.bind_eq_ok.1 h
  cases shown with
  | literal v => exact sound_constantColumn h
  | argument v => exact sound_constantColumn h
  | field source column => exact sound_fieldColumn hsources h
  | expr e => exact sound_exprColumn h

/-! ## One column after another -/

/-- A finished column has as many cells as there are rows, a name of its own, and is not a second identifier. -/
theorem addColumn_eq_ok {alias? : Option String} {done' : List ColumnData}
    (h : p.addColumn context sources selection groups expected done text alias? = .ok done') :
    ∃ data name, p.column context sources selection groups expected text = .ok data ∧ data.cells.length = expected ∧
      name ∉ done.map (·.field.name) ∧ done' = done ++
        [⟨⟨name, data.field.type, data.field.identifier && !done.any (·.field.identifier)⟩, data.cells⟩] := by
  obtain ⟨data, hdata, h⟩ := Outcome.bind_eq_ok.1 h
  dsimp only at h
  split at h
  · cases h
  · rename_i hlength
    split at h <;> cases h
    exact ⟨data, _, hdata, not_not.1 hlength, ‹_›, rfl⟩

theorem addColumn_of_error {alias? : Option String} {error : Error}
    (h : p.column context sources selection groups expected text = .error error) :
    p.addColumn context sources selection groups expected done text alias? = .error error := by
  unfold addColumn
  rw [h]
  rfl

/-- A column of another length than expected is refused for it. -/
theorem addColumn_of_length_ne {alias? : Option String}
    (h : p.column context sources selection groups expected text = .ok data) (hlength : data.cells.length ≠ expected) :
    p.addColumn context sources selection groups expected done text alias? =
      .error (.exec (.columnLength text data.cells.length expected)) := by
  unfold addColumn
  rw [h, Outcome.ok_bind]
  exact if_pos hlength

/-- A column of the expected length is not refused for it. -/
theorem addColumn_ne_columnLength {alias? : Option String} {length : Nat}
    (h : p.column context sources selection groups expected text = .ok data) (hlength : data.cells.length = expected) :
    p.addColumn context sources selection groups expected done text alias? ≠
      .error (.exec (.columnLength text length expected)) := by
  unfold addColumn
  rw [h, Outcome.ok_bind]
  dsimp only
  rw [if_neg (not_not.2 hlength)]
  split <;> nofun

/-- The columns that are finished make a well-formed fragment. -/
structure Finished (rows : Nat) (done : List ColumnData) : Prop where
  length : ∀ c ∈ done, c.cells.length = rows
  sound : ∀ c ∈ done, c.Sound
  atMostOne : done.countP (·.field.identifier) ≤ 1

namespace Finished

theorem nil : Finished expected [] := ⟨nofun, nofun, Nat.zero_le 1⟩

theorem addColumn (hdone : Finished expected done) (hsources : ∀ s ∈ sources, s.fragment.WellFormed)
    {alias? : Option String} {done' : List ColumnData}
    (h : p.addColumn context sources selection groups expected done text alias? = .ok done') :
    Finished expected done' := by
  obtain ⟨data, name, hdata, hlength, -, rfl⟩ := addColumn_eq_ok h
  have hsound := sound_column hsources hdata
  refine ⟨List.forall_mem_append.2 ⟨hdone.length, List.forall_mem_singleton.2 hlength⟩,
    List.forall_mem_append.2 ⟨hdone.sound, List.forall_mem_singleton.2 ⟨hsound.cells, fun hflag => ?_⟩⟩, ?_⟩
  · exact hsound.long (Bool.and_eq_true_iff.1 hflag).1
  · rw [List.countP_append, List.countP_singleton]
    split
    -- A column is flagged only as long as no other one is.
    · rename_i hflag
      have hnone : done.any (·.field.identifier) = false := by simpa using (Bool.and_eq_true_iff.1 hflag).2
      exact Nat.le_of_eq (congrArg (· + 1) (List.countP_eq_zero.2 (List.any_eq_false.1 hnone)))
    · exact hdone.atMostOne

theorem wellFormed (h : Finished expected columns) (name : String) : (assemble name expected columns).WellFormed where
  flags := by
    refine ⟨?_, fun field hfield => ?_⟩
    · unfold assemble
      rw [List.countP_map]
      exact h.atMostOne
    · obtain ⟨c, hc, rfl⟩ := List.mem_map.1 hfield
      exact (h.sound c hc).long
  records r hr := by
    obtain ⟨row, hrow, rfl⟩ := List.mem_map.1 hr
    unfold Record.Decodes assemble
    rw [List.forall₂_map_left_iff, List.forall₂_map_right_iff, List.forall₂_same]
    intro c hc
    have hcell : row < c.cells.length := by rw [h.length c hc]; exact List.mem_range.1 hrow
    rw [List.getD_eq_getElem?_getD, List.getElem?_eq_getElem hcell]
    exact (h.sound c hc).cells _ (List.getElem_mem hcell)

end Finished

/-! ## The output -/

theorem rowCount_assemble (name : String) (rows : Nat) (columns : List ColumnData) :
    (assemble name rows columns).rowCount = rows := by
  simp [assemble, Fragment.rowCount]

/-- A value of an assembled fragment is read from the cell of its column. -/
theorem value_assemble {rows row i : Nat} {c : ColumnData} {cell : Bytes} (hrow : row < rows)
    (hcolumn : columns[i]? = some c) (hcell : c.cells[row]? = some cell) :
    (assemble name rows columns).value row i = Cell.decode c.field.type cell := by
  simp [Fragment.value, assemble, hrow, hcolumn, Record.value, Record.cell, hcell, Outcome.ok_bind]

theorem project_eq_ok (h : p.project context sources selection groups = .ok f) :
    p.fields ≠ [] ∧ ∃ columns,
      p.fields.zipIdx.foldlM (fun done (text, i) => p.addColumn context sources selection groups
        ((groups.map List.length).getD selection.size) done text p.aliases[i]?) [] = .ok columns ∧
      f = assemble p.name ((groups.map List.length).getD selection.size) columns := by
  unfold project at h
  dsimp only at h
  split at h
  · cases h
  · rename_i hne
    split at h
    · cases h
    · obtain ⟨columns, hcolumns, h⟩ := Outcome.bind_eq_ok.1 h
      cases h
      exact ⟨by simpa using hne, columns, hcolumns, rfl⟩

/-- An output has the columns of its fields, in order, each with a cell for every row. -/
theorem columns_of_project (h : p.project context sources selection groups = .ok f) :
    ∃ columns, List.Forall₂ (fun text c => ∃ data,
        p.column context sources selection groups ((groups.map List.length).getD selection.size) text = .ok data ∧
        data.cells.length = (groups.map List.length).getD selection.size ∧
        c.field.type = data.field.type ∧ c.cells = data.cells) p.fields columns ∧
      f = assemble p.name ((groups.map List.length).getD selection.size) columns := by
  obtain ⟨-, columns, hcolumns, rfl⟩ := project_eq_ok h
  refine ⟨columns, ?_, rfl⟩
  have hstep : ∀ done (field : String × Nat) done',
      p.addColumn context sources selection groups ((groups.map List.length).getD selection.size) done field.1
        p.aliases[field.2]? = .ok done' →
      ∃ c, (∃ data, p.column context sources selection groups ((groups.map List.length).getD selection.size) field.1 =
        .ok data ∧ data.cells.length = (groups.map List.length).getD selection.size ∧
        c.field.type = data.field.type ∧ c.cells = data.cells) ∧ done' = done ++ [c] := by
    rintro done ⟨text, i⟩ done' hadd
    obtain ⟨data, name, hdata, hlength, -, rfl⟩ := addColumn_eq_ok hadd
    refine ⟨_, ⟨data, hdata, hlength, ?_, ?_⟩, rfl⟩ <;> rfl
  obtain ⟨columns, hmade, rfl⟩ := Outcome.foldlM_concat hstep hcolumns
  rw [← List.zipIdx_map_fst 0 p.fields, List.forall₂_map_left_iff]
  exact hmade

/-- An output has the columns of its fields, in order. -/
theorem forall₂_of_project (h : p.project context sources selection groups = .ok f) :
    ∃ columns, List.Forall₂ (fun text c => ∃ data,
        p.column context sources selection groups ((groups.map List.length).getD selection.size) text = .ok data ∧
        c.field.type = data.field.type ∧ c.cells = data.cells) p.fields columns ∧
      f = assemble p.name ((groups.map List.length).getD selection.size) columns := by
  obtain ⟨columns, hmade, rfl⟩ := columns_of_project h
  exact ⟨columns, hmade.imp fun _ _ ⟨data, hdata, _, same⟩ => ⟨data, hdata, same⟩, rfl⟩

/-- An output has a column at least. -/
theorem names_ne_nil_of_project (h : p.project context sources selection groups = .ok f) : f.schema.names ≠ [] := by
  obtain ⟨hne, -⟩ := project_eq_ok h
  obtain ⟨columns, hcolumns, rfl⟩ := forall₂_of_project h
  have hlength := List.length_pos_iff.2 hne
  rw [hcolumns.length_eq] at hlength
  simpa [assemble, Schema.names] using List.length_pos_iff.1 hlength

/-- No two columns of an output have one name. -/
theorem nodup_names_of_project (h : p.project context sources selection groups = .ok f) : f.schema.names.Nodup := by
  obtain ⟨-, columns, hcolumns, rfl⟩ := project_eq_ok h
  have hnodup : (columns.map (·.field.name)).Nodup := by
    refine Outcome.foldlM_keeps (P := fun done => (done.map (·.field.name)).Nodup) ?_ List.nodup_nil hcolumns
    rintro done ⟨text, i⟩ done' hdone hadd
    obtain ⟨data, name, -, -, hnew, rfl⟩ := addColumn_eq_ok hadd
    rw [List.map_append, List.map_singleton]
    refine List.nodup_append.2 ⟨hdone, List.pairwise_singleton _ _, fun x hx y hy hxy => hnew ?_⟩
    have hy : y = name := List.mem_singleton.1 hy
    rwa [← hy, ← hxy]
  unfold assemble Schema.names
  rwa [List.map_map]

theorem wellFormed_of_project (hsources : ∀ s ∈ sources, s.fragment.WellFormed)
    (h : p.project context sources selection groups = .ok f) : f.WellFormed := by
  obtain ⟨-, columns, hcolumns, rfl⟩ := project_eq_ok h
  refine Finished.wellFormed (Outcome.foldlM_keeps (P := Finished _) ?_ .nil hcolumns) p.name
  rintro done ⟨text, i⟩ done' hdone hadd
  exact hdone.addColumn hsources hadd

end Projection

/-- What a select makes is an output of a projection. -/
theorem SelectRequest.project_of_execute {request : SelectRequest} {context : Context} {sources : List Source}
    {f : Fragment} (h : request.execute context sources = .ok f) :
    ∃ p selection groups, Projection.project p context sources selection groups = .ok f := by
  obtain ⟨condition, -, h⟩ := Outcome.bind_eq_ok.1 h
  obtain ⟨groupBy, -, h⟩ := Outcome.bind_eq_ok.1 h
  obtain ⟨selection, -, h⟩ := Outcome.bind_eq_ok.1 h
  obtain ⟨groups, -, h⟩ := Outcome.bind_eq_ok.1 h
  exact ⟨_, selection, groups, h⟩

end FragmentEngine
