import FragmentEngine.Engine.Import
import FragmentEngine.Engine.Result
import FragmentEngine.Proofs.Fragment.Cell
import FragmentEngine.Proofs.Outcome
/-!
# Well-formed fragments

A fragment is well-formed if every record has one cell for each column, the bytes of some value of its type, and at most
one column, a LONG one, is flagged as the identifier. Then all its values can be read.
-/

namespace FragmentEngine

/-! ## Records -/

namespace Record

/-- One cell for each column, which decodes under its type. -/
def Decodes (schema : Schema) (r : Record) : Prop :=
  List.Forall₂ (fun field cell => Cell.Decodes field.type cell) schema.fields r.cells

variable {schema : Schema} {r : Record}

/-- Cells made of one item for each column. -/
theorem decodes_of_zip {α : Type} {items : List α} {cells : List Bytes} {make : Field → α → Except Error Bytes}
    (hmake : ∀ field item cell, make field item = .ok cell → Cell.Decodes field.type cell)
    (hlength : items.length = schema.width)
    (h : (schema.fields.zip items).mapM (fun (field, item) => make field item) = .ok cells) :
    Decodes schema ⟨cells⟩ := by
  have hcells : List.Forall₂ (fun (p : Field × α) cell => Cell.Decodes p.1.type cell) (schema.fields.zip items) cells :=
    (Outcome.mapM_eq_ok.1 h).imp fun (p : Field × α) cell => hmake p.1 p.2 cell
  unfold Decodes
  rw [← List.map_fst_zip (hlength ▸ Nat.le_refl _ : schema.fields.length ≤ items.length),
    List.forall₂_map_left_iff]
  exact hcells

theorem decodes_of_ofValues {values : List Value} (h : ofValues schema.types values = .ok r) : r.Decodes schema := by
  unfold ofValues at h
  split at h
  · cases h
  · rename_i hlength
    obtain ⟨cells, hcells, h⟩ := Outcome.bind_eq_ok.1 h
    cases h
    have hzip : schema.types.zip values = (schema.fields.zip values).map fun p => (p.1.type, p.2) := by
      rw [Schema.types, List.zip_map_left]
      rfl
    rw [hzip, List.mapM_map] at hcells
    refine decodes_of_zip (fun field v cell => Cell.decodes_of_encode (v := v)) ?_ hcells
    simpa [Schema.types, Schema.width] using not_not.1 hlength

/-- The value of a cell of a record that decodes. -/
theorem Decodes.value (h : r.Decodes schema) {column : Nat} {field : Field}
    (hfield : schema.fields[column]? = some field) : ∃ v, r.value column field.type = .ok v := by
  obtain ⟨hcolumn, rfl⟩ := List.getElem?_eq_some_iff.1 hfield
  obtain ⟨hlength, hcells⟩ := List.forall₂_iff_get.1 h
  obtain ⟨v, hv⟩ := hcells column hcolumn (hlength ▸ hcolumn)
  refine ⟨v, ?_⟩
  rw [Record.value, cell, List.getElem?_eq_getElem (hlength ▸ hcolumn), Outcome.ok_bind]
  exact hv

end Record

/-! ## Fragments -/

/-- At most one column is flagged as the identifier, and a flagged one is LONG. -/
structure Schema.WellFlagged (s : Schema) : Prop where
  atMostOne : s.fields.countP Field.identifier ≤ 1
  long : ∀ field ∈ s.fields, field.identifier = true → field.type = .long

/-- The identifier column is a LONG one, flagged or not. -/
theorem Schema.WellFlagged.idIndex_long {s : Schema} (h : s.WellFlagged) {column : Nat} {field : Field}
    (hid : s.idIndex? = some column) (hfield : s.fields[column]? = some field) : field.type = .long := by
  obtain ⟨hcolumn, rfl⟩ := List.getElem?_eq_some_iff.1 hfield
  unfold idIndex? at hid
  split at hid
  · rename_i i hi
    cases hid
    obtain ⟨_, hflag, -⟩ := List.findIdx?_eq_some_iff_getElem.1 hi
    exact h.long _ (List.getElem_mem hcolumn) hflag
  · obtain ⟨_, htype, -⟩ := List.findIdx?_eq_some_iff_getElem.1 hid
    simpa using htype

structure Fragment.WellFormed (f : Fragment) : Prop where
  flags : f.schema.WellFlagged
  records : ∀ r ∈ f.records, r.Decodes f.schema

namespace Fragment.WellFormed

variable {f g : Fragment} {schema : Schema} {row column : Nat}

theorem empty (name : String) (h : schema.WellFlagged) : (Fragment.empty name schema).WellFormed := ⟨h, nofun⟩

/-- Records that decode can be added. -/
theorem append (h : f.WellFormed) {records : List Record} (hrecords : ∀ r ∈ records, r.Decodes f.schema) :
    ({ f with records := f.records ++ records } : Fragment).WellFormed where
  flags := h.flags
  records := List.forall_mem_append.2 ⟨h.records, hrecords⟩

theorem pushValues (h : f.WellFormed) {values : List Value} (hpush : f.pushValues values = .ok g) :
    g.WellFormed := by
  obtain ⟨r, hr, hpush⟩ := Outcome.bind_eq_ok.1 hpush
  cases hpush
  refine h.append fun r' hr' => ?_
  rw [List.mem_singleton.1 hr']
  exact Record.decodes_of_ofValues hr

theorem value (h : f.WellFormed) (hrow : row < f.rowCount) (hcolumn : column < f.schema.width) :
    ∃ v, f.value row column = .ok v := by
  have hr := List.getElem?_eq_getElem hrow
  have hfield := List.getElem?_eq_getElem hcolumn
  obtain ⟨v, hv⟩ := (h.records _ (List.getElem_mem hrow)).value hfield
  refine ⟨v, ?_⟩
  unfold Fragment.value
  rw [hr, hfield]
  exact hv

/-- All values of a well-formed fragment are read, row by row. -/
theorem ofFragment (h : f.WellFormed) : ∃ result, QueryResult.ofFragment f = .ok result := by
  obtain ⟨rows, hrows⟩ : ∃ rows, (List.range f.rowCount).mapM
      (fun row => (List.range f.schema.width).mapM (f.value row)) = .ok rows :=
    Outcome.mapM_total fun row hrow => Outcome.mapM_total fun column hcolumn =>
      h.value (List.mem_range.1 hrow) (List.mem_range.1 hcolumn)
  exact ⟨⟨f.schema.names, rows, 0, none⟩, by rw [QueryResult.ofFragment, hrows]; rfl⟩

end Fragment.WellFormed

/-! ## Imports -/

namespace Import

theorem wellFlagged_schema (measure : String) : (schema measure).WellFlagged where
  atMostOne := Nat.le_refl 1
  long field hfield hflag := by
    rcases List.mem_cons.1 hfield with rfl | hfield
    · rfl
    · rw [List.mem_singleton.1 hfield] at hflag
      cases hflag

/-- An import is well-formed and has the columns of an import. -/
theorem wellFormed_of_ofText {r : Import} {text : String} {f : Fragment} (h : r.ofText text = .ok f) :
    f.WellFormed ∧ f.schema = schema r.measure := by
  obtain ⟨g, hrows, h⟩ := Outcome.bind_eq_ok.1 h
  have hg : g.WellFormed ∧ g.schema = schema r.measure := by
    refine Outcome.foldlM_keeps (P := fun g => g.WellFormed ∧ g.schema = schema r.measure) ?_
      ⟨.empty r.measure (wellFlagged_schema r.measure), rfl⟩ hrows
    rintro f ⟨line, i⟩ f' ⟨hf, hschema⟩ hpush
    obtain ⟨values, -, hpush⟩ := Outcome.bind_eq_ok.1 hpush
    refine ⟨hf.pushValues hpush, ?_⟩
    rw [← hschema]
    obtain ⟨_, -, hpush⟩ := Outcome.bind_eq_ok.1 hpush
    cases hpush
    rfl
  dsimp only at h
  split at h
  · split at h <;> cases h
    exact hg
  · cases h
    exact hg

end Import

end FragmentEngine
