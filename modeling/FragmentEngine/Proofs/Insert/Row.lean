import FragmentEngine.Insert.Row
import FragmentEngine.Proofs.Fragment.WellFormed
/-!
# Rows of inserted values

Values that are rows put one after another are cut into these rows again, and each row becomes one record of the
width of the schema. What becomes of one column is seen in the record if the other columns take their texts.
-/

namespace FragmentEngine.Insert

variable {context : Context} {schema : Schema} {names : List String} {rows : List (List String)}

theorem rowsOf_succ {width count : Nat} {row rest : List String} (hrow : row.length = width) :
    rowsOf width (count + 1) (row ++ rest) = row :: rowsOf width count rest := by
  unfold rowsOf
  rw [List.range_succ_eq_map, List.map_cons, List.map_map]
  congr 1
  · simp [← hrow]
  · refine List.map_congr_left fun i _ => ?_
    have hdrop : (i + 1) * width = row.length + i * width := by rw [hrow, Nat.succ_mul, Nat.add_comm]
    simp only [Function.comp, Nat.succ_eq_add_one, hdrop, List.drop_length_add_append]

/-- Rows of one width can be told from their values. -/
theorem rowsOf_flatten {width : Nat} (hrows : ∀ row ∈ rows, row.length = width) :
    rowsOf width rows.length rows.flatten = rows := by
  induction rows with
  | nil => rfl
  | cons row rest ih =>
    obtain ⟨hrow, hrest⟩ := List.forall_mem_cons.1 hrows
    rw [List.length_cons, List.flatten_cons, rowsOf_succ hrow, ih hrest]

theorem length_flatten {width : Nat} (hrows : ∀ row ∈ rows, row.length = width) :
    rows.flatten.length = rows.length * width := by
  rw [List.length_flatten, List.map_congr_left hrows]
  simp

theorem width_encodeRow {row : List String} {r : Record} (h : encodeRow context schema row = .ok r)
    (hrow : row.length = schema.width) : r.width = schema.width := by
  obtain ⟨cells, hcells, h⟩ := Outcome.bind_eq_ok.1 h
  cases h
  have hlength := (Outcome.mapM_eq_ok.1 hcells).length_eq
  simpa [Record.width, hrow, Schema.width] using hlength.symm

/-- Records of rows of the width of the schema have it too. -/
theorem width_of_mapM {records : List Record} (h : rows.mapM (encodeRow context schema) = .ok records)
    (hrows : ∀ row ∈ rows, row.length = schema.width) : ∀ r ∈ records, r.width = schema.width := by
  intro r hr
  obtain ⟨row, hrow, hencode⟩ := Outcome.exists_of_mem (Outcome.mapM_eq_ok.1 h) hr
  exact width_encodeRow hencode (hrows row hrow)

theorem checkNames_eq (hnames : names = [] ∨ names = schema.names) : checkNames schema names = .ok () := by
  unfold checkNames
  rw [if_pos]
  rcases hnames with rfl | rfl
  · exact .inl rfl
  · exact .inr rfl

theorem record_eq (hnames : names = [] ∨ names = schema.names) {row : List String} (hrow : row.length = schema.width) :
    record context schema names row = encodeRow context schema row := by
  unfold record
  rw [checkNames_eq hnames, Outcome.ok_bind, if_neg (not_not.2 hrow)]

/-- The values of several rows become one record for each row. -/
theorem records_eq (hnames : names = [] ∨ names = schema.names) (hwidth : schema.width ≠ 0) (hne : rows ≠ [])
    (hrows : ∀ row ∈ rows, row.length = schema.width) :
    records context schema names rows.flatten = rows.mapM (encodeRow context schema) := by
  have hlength := length_flatten hrows
  have hpos : 0 < rows.length := List.length_pos_of_ne_nil hne
  have hvalues : rows.flatten ≠ [] := by
    rw [← List.length_pos_iff, hlength]
    exact Nat.mul_pos hpos (Nat.pos_of_ne_zero hwidth)
  unfold records
  rw [checkNames_eq hnames, Outcome.ok_bind]
  dsimp only
  rw [if_neg, hlength, Nat.mul_div_cancel _ (Nat.pos_of_ne_zero hwidth), rowsOf_flatten hrows]
  simp [hwidth, hvalues, hlength]

/-! ## One column of a row -/

/-- The cell that a text makes in a column of a given type. -/
def cellOf (context : Context) (type : FieldType) (text : String) : Except Error Bytes := do
  Cell.encode type (← valueOf context type text)

/-- A row for a schema, with a text in a certain column. The texts in the other columns make cells. -/
structure RowWith (context : Context) (schema : Schema) (names values : List String) (column : Nat) (field : Field)
    (text : String) : Prop where
  named : names = [] ∨ names = schema.names
  full : values.length = schema.width
  field_eq : schema.fields[column]? = some field
  text_eq : values[column]? = some text
  others : ∀ item ∈ (schema.fields.zip values).eraseIdx column, ∃ cell, cellOf context item.1.type item.2 = .ok cell

namespace RowWith

variable {values : List String} {column : Nat} {field : Field} {text : String}

theorem zip_eq (h : RowWith context schema names values column field text) :
    (schema.fields.zip values)[column]? = some (field, text) :=
  List.getElem?_zip_eq_some.2 ⟨h.field_eq, h.text_eq⟩

theorem record_eq (h : RowWith context schema names values column field text) :
    record context schema names values =
      (schema.fields.zip values).mapM (fun item => cellOf context item.1.type item.2) >>= fun cells => .ok ⟨cells⟩ :=
  Insert.record_eq h.named h.full

/-- The row becomes a record with the cell of the text in its place. -/
theorem record_ok (h : RowWith context schema names values column field text) {cell : Bytes}
    (hcell : cellOf context field.type text = .ok cell) :
    ∃ r, record context schema names values = .ok r ∧ r.cell column = .ok cell := by
  obtain ⟨cells, hcells, hplace⟩ := Outcome.mapM_eq_ok_of_others h.zip_eq hcell h.others
  refine ⟨⟨cells⟩, ?_, ?_⟩
  · rw [h.record_eq, hcells, Outcome.ok_bind]
  · rw [Record.cell, hplace]

/-- A text that stands for a string is read from the record as this string. -/
theorem record_string (h : RowWith context schema names values column field text) (htype : field.type = .string)
    {s : String} (hvalue : valueOf context .string text = .ok (.str s)) :
    ∃ r, record context schema names values = .ok r ∧ r.value column .string = .ok (.str s) := by
  have hcell : cellOf context field.type text = Cell.encode .string (.str s) := by
    rw [htype, cellOf, hvalue, Outcome.ok_bind]
  obtain ⟨r, hr, hplace⟩ := h.record_ok hcell
  refine ⟨r, hr, ?_⟩
  rw [Record.value, hplace, Outcome.ok_bind]
  exact Cell.decode_of_encode (v := .str s) rfl

/-- If the text makes no cell, the row makes no record, for the same reason. -/
theorem record_error (h : RowWith context schema names values column field text) {e : Error}
    (hcell : cellOf context field.type text = .error e) : record context schema names values = .error e := by
  rw [h.record_eq, Outcome.mapM_eq_error_of_others h.zip_eq hcell h.others]
  rfl

end RowWith

/-! ## Records that decode -/

theorem decodes_of_encodeRow {row : List String} {r : Record} (h : encodeRow context schema row = .ok r)
    (hrow : row.length = schema.width) : r.Decodes schema := by
  obtain ⟨cells, hcells, h⟩ := Outcome.bind_eq_ok.1 h
  cases h
  have hmake (field : Field) (text : String) (cell : Bytes)
      (hcell : (do Cell.encode field.type (← valueOf context field.type text)) = .ok cell) :
      Cell.Decodes field.type cell := by
    obtain ⟨v, -, hcell⟩ := Outcome.bind_eq_ok.1 hcell
    exact Cell.decodes_of_encode hcell
  exact Record.decodes_of_zip hmake hrow hcells

theorem decodes_of_record {values : List String} {r : Record} (h : record context schema names values = .ok r) :
    r.Decodes schema := by
  obtain ⟨⟨⟩, -, h⟩ := Outcome.bind_eq_ok.1 h
  split at h
  · cases h
  · exact decodes_of_encodeRow h (not_not.1 ‹_›)

/-- Rows that the values suffice for are full. -/
theorem length_of_mem_rowsOf {width count : Nat} {values row : List String} (hcount : count * width ≤ values.length)
    (h : row ∈ rowsOf width count values) : row.length = width := by
  obtain ⟨i, hi, rfl⟩ := List.mem_map.1 h
  have hnext : (i + 1) * width ≤ count * width := Nat.mul_le_mul_right width (List.mem_range.1 hi)
  rw [Nat.succ_mul] at hnext
  rw [List.length_take, List.length_drop]
  omega

theorem decodes_of_records {values : List String} {made : List Record}
    (h : records context schema names values = .ok made) : ∀ r ∈ made, r.Decodes schema := by
  obtain ⟨⟨⟩, -, h⟩ := Outcome.bind_eq_ok.1 h
  dsimp only at h
  split at h
  · cases h
  · intro r hr
    obtain ⟨row, hrow, hencode⟩ := Outcome.exists_of_mem (Outcome.mapM_eq_ok.1 h) hr
    exact decodes_of_encodeRow hencode (length_of_mem_rowsOf (Nat.div_mul_le_self _ _) hrow)

end FragmentEngine.Insert
