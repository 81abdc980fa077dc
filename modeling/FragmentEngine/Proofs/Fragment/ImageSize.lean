import FragmentEngine.Proofs.Fragment.Accepted
/-!
# Sizes of images

What an image spends on each column and on each cell. Bytes that are read as a fragment pay for all of its columns and
cells, so the rows of a fragment with columns cannot outnumber the bytes. A row without cells costs nothing.
-/

namespace FragmentEngine.Image

variable {bytes : Bytes} {f : Fragment}

theorem length_chunk (bytes : Bytes) : (chunk bytes).length = 4 + bytes.length := by
  rw [chunk, List.length_append, Bytes.length_littleEndian]

theorem length_fieldBytes (f : Field) : (fieldBytes f).length = 6 + (Text.Utf8.encode f.name).length := by
  rw [fieldBytes, List.length_append, length_chunk]
  simp only [List.length_cons, List.length_nil]
  omega

/-- The length of each cell takes four bytes. -/
theorem length_recordBytes (r : Record) : (recordBytes r).length = 4 * r.width + r.size := by
  obtain ⟨cells⟩ := r
  show (cells.flatMap chunk).length = 4 * cells.length + cells.flatten.length
  induction cells with
  | nil => rfl
  | cons cell cells ih =>
    rw [List.flatMap_cons, List.length_append, ih, length_chunk, List.length_cons, List.flatten_cons, List.length_append]
    omega

theorem length_columns (fields : List Field) : 6 * fields.length ≤ (fields.flatMap fieldBytes).length := by
  induction fields with
  | nil => exact Nat.le_refl 0
  | cons f fields ih =>
    rw [List.flatMap_cons, List.length_append, length_fieldBytes, List.length_cons]
    omega

/-- Rows of one width. -/
theorem length_rows {width : Nat} {records : List Record} (even : ∀ r ∈ records, r.width = width) :
    (records.flatMap recordBytes).length = 4 * (width * records.length) + records.foldr (·.size + ·) 0 := by
  induction records with
  | nil => rfl
  | cons r records ih =>
    rw [List.forall_mem_cons] at even
    rw [List.flatMap_cons, List.length_append, ih even.2, length_recordBytes, even.1, List.length_cons, List.foldr_cons,
      Nat.mul_succ]
    omega

/-- What an image takes besides the texts of its names. -/
theorem size_le_length (fits : Fits f) :
    22 + 6 * f.schema.width + 4 * (f.schema.width * f.rowCount) + f.size ≤ (ofFragment f).length := by
  have columns : 6 * f.schema.width ≤ (f.schema.fields.flatMap fieldBytes).length := length_columns f.schema.fields
  have rows : (f.records.flatMap recordBytes).length = 4 * (f.schema.width * f.rowCount) + f.size :=
    length_rows fits.records
  simp only [ofFragment, List.length_append, length_chunk, Bytes.length_littleEndian, rows, mark, List.length_cons,
    List.length_nil]
  omega

/-- An image is read also with other bytes behind it. -/
theorem toFragment_append (fits : Fits f) (rest : Bytes) : toFragment (ofFragment f ++ rest) = .ok f := by
  show (readFragment (ofFragment f ++ rest)).map Prod.fst = _
  rw [Reads.fragment fits rest]
  rfl

/-! ## Rows without cells -/

/-- The fragment with other rows, of no cells each. -/
def withBareRows (f : Fragment) (count : Nat) : Fragment := { f with records := List.replicate count ⟨[]⟩ }

/-- Without columns any number of rows fits an image that fits. -/
theorem fits_withBareRows (fits : Fits f) (bare : f.schema.width = 0) {count : Nat} (few : count < 2 ^ 64) :
    Fits (withBareRows f count) where
  name := fits.name
  width := fits.width
  names := fits.names
  records r hr := by
    rw [List.eq_of_mem_replicate hr]
    exact bare.symm
  cells r hr := by
    rw [List.eq_of_mem_replicate hr]
    exact nofun
  rows := by
    show (List.replicate count _).length < 2 ^ 64
    rwa [List.length_replicate]

theorem rows_of_no_cells {records : List Record} (bare : ∀ r ∈ records, r.width = 0) :
    records.flatMap recordBytes = [] := by
  refine List.flatMap_eq_nil_iff.2 fun r hr => ?_
  rw [recordBytes, List.eq_nil_of_length_eq_zero (bare r hr)]
  rfl

/-- Without columns the image is as long whatever the number of rows. -/
theorem length_withBareRows (fits : Fits f) (bare : f.schema.width = 0) (count : Nat) :
    (ofFragment (withBareRows f count)).length = (ofFragment f).length := by
  have rows : f.records.flatMap recordBytes = [] := rows_of_no_cells fun r hr => (fits.records r hr).trans bare
  have bareRows : (withBareRows f count).records.flatMap recordBytes = [] := rows_of_no_cells fun r hr => by
    rw [List.eq_of_mem_replicate hr]
    rfl
  simp only [ofFragment, rows, bareRows, List.length_append, Bytes.length_littleEndian]
  rfl

/-- Bytes that are read as a fragment have six for each column, four for each cell and those of the cells. So there are
fewer rows than bytes if there are columns. If there are none, as many bytes are read as any number of rows that eight
bytes can count. -/
theorem rowCount_of_toFragment (read : toFragment bytes = .ok f) :
    22 + 6 * f.schema.width + 4 * (f.schema.width * f.rowCount) + f.size ≤ bytes.length ∧
      (f.schema.width ≠ 0 → f.rowCount < bytes.length) ∧
      (f.schema.width = 0 → ∀ count < 2 ^ 64, ∃ others : Bytes, others.length = bytes.length ∧
        toFragment others = .ok (withBareRows f count) ∧ (withBareRows f count).rowCount = count) := by
  obtain ⟨fits, front, settled, rest, rfl⟩ := toFragment_eq_ok.1 read
  have whole : (ofFragment f).length + rest.length = (front ++ rest).length := by
    rw [List.length_append, settled.length_eq]
  have size := size_le_length fits
  refine ⟨by omega, fun columns => ?_, fun bare count few => ?_⟩
  · have cells : f.rowCount ≤ f.schema.width * f.rowCount := Nat.le_mul_of_pos_left _ (Nat.pos_of_ne_zero columns)
    omega
  · refine ⟨ofFragment (withBareRows f count) ++ rest, ?_, toFragment_append (fits_withBareRows fits bare few) rest,
      List.length_replicate⟩
    rw [List.length_append, length_withBareRows fits bare, whole]

/-- Two rows of two columns are fewer than the bytes they are read from. The image of no rows and no columns is as long as
one of a hundred rows. -/
theorem rowCount_of_toFragment_twoRows :
    let none : Fragment := .empty "" ⟨[]⟩
    toFragment looseTwoRows = .ok twoRows ∧ twoRows.rowCount < looseTwoRows.length ∧
      toFragment (ofFragment none) = .ok none ∧
      ∃ others : Bytes, others.length = 22 ∧ toFragment others = .ok (withBareRows none 100) := by
  intro none
  have two : toFragment looseTwoRows = .ok twoRows := by decide +kernel
  have bare : toFragment (ofFragment none) = .ok none := by decide +kernel
  obtain ⟨others, length, read, -⟩ := (rowCount_of_toFragment bare).2.2 rfl 100 (by decide)
  exact ⟨two, (rowCount_of_toFragment two).2.1 (by decide), bare, others, length.trans (by decide +kernel), read⟩

/-- Twenty-three rows are read from twenty-two bytes. -/
theorem rows_outnumber_bytes :
    let bytes : Bytes := [0x46, 0x52, 0x41, 0x47, 1, 0, 0, 0, 0, 0, 0, 0, 0, 0, 23, 0, 0, 0, 0, 0, 0, 0]
    ∃ f, toFragment bytes = .ok f ∧ bytes.length = 22 ∧ f.rowCount = 23 := by
  intro bytes
  exact ⟨withBareRows (.empty "" ⟨[]⟩) 23, by decide +kernel, rfl, rfl⟩

end FragmentEngine.Image
