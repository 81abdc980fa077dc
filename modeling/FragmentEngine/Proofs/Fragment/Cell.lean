import FragmentEngine.Fragment.Cell
import FragmentEngine.Proofs.Text.Utf8
/-!
# Reading cells back

Whatever value a column took can be read from its cell, and what is read is written as the same bytes. A value that is
written into a column of its own type is read back as it was. A value that a column cannot take is a failure of
execution.
-/

namespace FragmentEngine

theorem Long.ofBytes_toBytes (n : Long) : ofBytes n.toBytes = n := by
  unfold ofBytes toBytes
  rw [Bytes.toNat_littleEndian n.toUInt64.toNat_lt, UInt64.ofNat_toNat]

theorem Binary64.ofBytes_toBytes (x : Binary64) : ofBytes x.toBytes = x := by
  unfold ofBytes toBytes
  rw [Bytes.toNat_littleEndian x.bits.toNat_lt, UInt64.ofNat_toNat]

/-- Eight bytes are one of the numbers that 64 bits hold, and the bytes of that number. -/
theorem Bytes.littleEndian_ofNat {bytes : Bytes} (h : bytes.length = 8) :
    littleEndian 8 (UInt64.ofNat bytes.toNat).toNat = bytes := by
  have small : bytes.toNat < Nat.pow 256 8 := by
    rw [← h]
    exact toNat_lt bytes
  rw [UInt64.toNat_ofNat', Nat.mod_eq_of_lt small, ← h, littleEndian_toNat]

theorem Long.toBytes_ofBytes {bytes : Bytes} (h : bytes.length = 8) : (ofBytes bytes).toBytes = bytes :=
  Bytes.littleEndian_ofNat h

theorem Binary64.toBytes_ofBytes {bytes : Bytes} (h : bytes.length = 8) : (ofBytes bytes).toBytes = bytes :=
  Bytes.littleEndian_ofNat h

namespace Cell

theorem dropNul_append (bytes : Bytes) : dropNul (bytes ++ [0]) = bytes := by simp [dropNul]

/-- A column of a value's own type takes it. -/
theorem encode_fieldType (v : Value) : ∃ cell, encode v.fieldType v = .ok cell := by cases v <;> exact ⟨_, rfl⟩

/-- A value is read back from a column of its own type. -/
theorem decode_of_encode {v : Value} {cell : Bytes} (h : encode v.fieldType v = .ok cell) :
    decode v.fieldType cell = .ok v := by
  cases v with
  | long n =>
    cases h
    rw [Value.fieldType, decode, if_pos (Long.length_toBytes n), Long.ofBytes_toBytes]
  | double x =>
    cases h
    rw [Value.fieldType, decode, if_pos (Binary64.length_toBytes x), Binary64.ofBytes_toBytes]
  | str s =>
    cases h
    rw [Value.fieldType, decode, dropNul_append, Text.Utf8.decode_encode]
  | binary bytes =>
    cases h
    rfl

/-- What is read from a column has the type of the column. -/
theorem fieldType_of_decode {type : FieldType} {v : Value} {cell : Bytes} (h : decode type cell = .ok v) :
    v.fieldType = type := by
  cases type with
  | long | real =>
    rw [decode] at h
    split at h <;> cases h
    rfl
  | string =>
    rw [decode] at h
    split at h <;> cases h
    rfl
  | blob =>
    cases h
    rfl

/-- A value that a column cannot take is a failure of execution. -/
theorem encode_error {type : FieldType} {v : Value} {error : Error} (h : encode type v = .error error) :
    ∃ cause, error = .exec cause := by
  unfold encode at h
  split at h
  case h_8 bytes =>
    split at h
    · cases h
    · cases h
      exact ⟨_, rfl⟩
  case h_9 =>
    cases h
    exact ⟨_, rfl⟩
  all_goals cases h

/-! ## Cells that decode -/

variable {type : FieldType} {v : Value} {cell : Bytes}

/-- The bytes are those of some value. -/
def Decodes (type : FieldType) (cell : Bytes) : Prop := ∃ v, decode type cell = .ok v

theorem decodes_of_length (htype : type.isNumeric = true) (hlength : cell.length = 8) : Decodes type cell := by
  cases type with
  | long => exact ⟨_, if_pos hlength⟩
  | real => exact ⟨_, if_pos hlength⟩
  | string => cases htype
  | blob => cases htype

theorem decodes_blob (cell : Bytes) : Decodes .blob cell := ⟨.binary cell, rfl⟩

theorem decodes_text (s : String) : Decodes .string (Text.Utf8.encode s ++ [0]) :=
  ⟨.str s, decode_of_encode (v := .str s) rfl⟩

/-- Numbers take eight bytes, also where raw bytes are taken for one. -/
theorem length_of_encode (htype : type.isNumeric = true) (h : encode type v = .ok cell) : cell.length = 8 := by
  have hraw {bytes : Bytes} {e : Error}
      (h : (if type.isNumeric ∧ bytes.length = 8 then Except.ok bytes else .error e) = .ok cell) : cell.length = 8 := by
    split at h <;> cases h
    exact And.right ‹_›
  cases type with
  | string | blob => cases htype
  | long =>
    cases v with
    | long n => cases h; simp
    | double x => cases h; simp
    | str s => cases h
    | binary bytes => exact hraw h
  | real =>
    cases v with
    | long n => cases h; simp
    | double x => cases h; simp
    | str s => cases h
    | binary bytes => exact hraw h

/-- Whatever value was encoded, with or without conversion, the cell decodes again. -/
theorem decodes_of_encode (h : encode type v = .ok cell) : Decodes type cell := by
  cases type with
  | long => exact decodes_of_length rfl (length_of_encode rfl h)
  | real => exact decodes_of_length rfl (length_of_encode rfl h)
  | blob => exact decodes_blob cell
  | string =>
    cases v with
    | str s =>
      cases h
      exact decodes_text s
    | _ => cases h

/-! ## Writing again -/

/-- What is read from a cell is written as its bytes, if a text has the NUL that closes it. -/
theorem encode_of_decode (h : decode type cell = .ok v) (closed : type = .string → cell.getLast? = some 0) :
    encode type v = .ok cell := by
  cases type with
  | long =>
    rw [decode] at h
    split at h
    next eight =>
      cases h
      exact congrArg Except.ok (Long.toBytes_ofBytes eight)
    next => cases h
  | real =>
    rw [decode] at h
    split at h
    next eight =>
      cases h
      exact congrArg Except.ok (Binary64.toBytes_ofBytes eight)
    next => cases h
  | string =>
    rw [decode] at h
    split at h
    next s text =>
      cases h
      have nul : cell.getLast? = some 0 := closed rfl
      rw [dropNul, if_pos nul] at text
      show Except.ok (Text.Utf8.encode s ++ [0]) = _
      rw [Text.Utf8.encode_of_decode text, List.dropLast_append_getLast? 0 nul]
    next => cases h
  | blob =>
    cases h
    rfl

/-- Every text that is written is closed by a NUL. -/
theorem closed_of_encode (h : encode .string v = .ok cell) : cell.getLast? = some 0 := by
  cases v with
  | str s =>
    cases h
    exact List.getLast?_concat
  | _ => cases h

/-- What a column took, converted or not, is read from its cell as a value of the column's own kind: as it was if it is of
this kind itself. Written again it makes the same bytes. -/
theorem recode_of_encode (h : encode type v = .ok cell) :
    ∃ w, decode type cell = .ok w ∧ w.fieldType = type ∧ (v.fieldType = type → w = v) ∧ encode type w = .ok cell := by
  obtain ⟨w, read⟩ := decodes_of_encode h
  refine ⟨w, read, fieldType_of_decode read, ?_, encode_of_decode read ?_⟩
  · rintro rfl
    exact Except.ok.inj (read.symm.trans (decode_of_encode h))
  · rintro rfl
    exact closed_of_encode h

/-- A text with NULs inside and at its end, and eight raw bytes that are those of a NaN. -/
theorem recode_of_encode_nuls :
    let text : Value := .str "a\x00b\x00"
    let raw : Bytes := [1, 0, 0, 0, 0, 0, 0xF8, 0x7F]
    encode .string text = .ok [97, 0, 98, 0, 0] ∧ decode .string [97, 0, 98, 0, 0] = .ok text ∧
      encode .real (.binary raw) = .ok raw ∧ ∃ x, decode .real raw = .ok x ∧ encode .real x = .ok raw := by
  intro text raw
  have closed : encode .string text = .ok [97, 0, 98, 0, 0] := by decide +kernel
  obtain ⟨w, read, -, same, -⟩ := recode_of_encode closed
  cases same rfl
  have passed : encode .real (.binary raw) = .ok raw := by decide +kernel
  obtain ⟨x, number, -, -, again⟩ := recode_of_encode passed
  exact ⟨closed, read, passed, x, number, again⟩

end Cell

end FragmentEngine
