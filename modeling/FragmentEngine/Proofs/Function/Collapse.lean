import Mathlib.Tactic.Ring
import FragmentEngine.Proofs.Function.Index
/-!
# Collapsed identifiers

An identifier is taken apart into the identifier after an extent is collapsed and the index along this extent. Nothing
is lost: the identifier is combined from the two again, and every two parts are those of what is combined from them, as
long as this is a long.
-/

namespace FragmentEngine.Index

/-! ## Places -/

section

variable {size block place index : Int}

theorem ediv_emod_block (blocks : Int) {rest : Int} (hrest : 0 ≤ rest) (hlt : rest < block) :
    (blocks * block + rest) / block = blocks ∧ (blocks * block + rest) % block = rest := by
  rw [Int.ediv_emod_unique (by omega)]
  exact ⟨by ring, hrest, hlt⟩

/-- The place after an extent of `size` above blocks of `block` is collapsed. -/
def collapsedPlace (size block place : Int) : Int := place / (size * block) * block + place % block

/-- The place whose collapsed one is `outer` and whose index, counted from zero, is `index`. -/
def combinedPlace (size block outer index : Int) : Int := (outer / block * size + index) * block + outer % block

theorem collapsedPlace_nonneg (hplace : 0 ≤ place) (hsize : 0 < size) (hblock : 0 < block) :
    0 ≤ collapsedPlace size block place :=
  Int.add_nonneg (Int.mul_nonneg (Int.ediv_nonneg hplace (Int.mul_pos hsize hblock).le) hblock.le)
    (Int.emod_nonneg place hblock.ne')

theorem combinedPlace_nonneg {outer : Int} (houter : 0 ≤ outer) (hindex : 0 ≤ index) (hsize : 0 < size)
    (hblock : 0 < block) : 0 ≤ combinedPlace size block outer index :=
  Int.add_nonneg (Int.mul_nonneg (Int.add_nonneg (Int.mul_nonneg (Int.ediv_nonneg houter hblock.le) hsize.le) hindex)
    hblock.le) (Int.emod_nonneg outer hblock.ne')

/-- Both parts together are the place they were taken from. -/
theorem combinedPlace_collapsed (hblock : 0 < block) :
    combinedPlace size block (collapsedPlace size block place) (place / block % size) = place := by
  obtain ⟨houter, hrest⟩ := ediv_emod_block (place / (size * block)) (Int.emod_nonneg place hblock.ne')
    (Int.emod_lt_of_pos place hblock)
  have hblocks := Int.mul_ediv_add_emod (place / block) size
  rw [combinedPlace, collapsedPlace, houter, hrest, Int.mul_comm size block, ← Int.ediv_ediv_of_nonneg hblock.le,
    Int.mul_comm _ size, hblocks, Int.mul_comm _ block, Int.mul_ediv_add_emod]

/-- The parts of a combined place are those it was combined from. -/
theorem parts_combinedPlace (outer : Int) (hblock : 0 < block) (hindex : 0 ≤ index) (hlt : index < size) :
    collapsedPlace size block (combinedPlace size block outer index) = outer ∧
      combinedPlace size block outer index / block % size = index := by
  have hrest := ediv_emod_block (outer / block * size + index) (Int.emod_nonneg outer hblock.ne')
    (Int.emod_lt_of_pos outer hblock)
  have hblocks := ediv_emod_block (outer / block) hindex hlt
  rw [collapsedPlace, combinedPlace, Int.mul_comm size block, ← Int.ediv_ediv_of_nonneg hblock.le, hrest.1, hrest.2,
    hblocks.1, hblocks.2, Int.mul_comm _ block, Int.mul_ediv_add_emod]
  exact ⟨rfl, rfl⟩

end

/-! ## Identifiers -/

/-- The collapsed identifier and the index along the collapsed extent. -/
def parts (size block id : Long) : Except Error Value × Except Error Value :=
  (collapse [.long id, .long size, .long block], alongBlocks [.long id, .long block, .long size])

section

variable {size block id : Long}

theorem parts_eq_iff (hsize : 0 < size.toInt) (hblock : 0 < block.toInt)
    (hextent : Long.Fits (size.toInt * block.toInt)) (hid : 0 < id.toInt) {outer index : Long} :
    parts size block id = (.ok (.long outer), .ok (.long index)) ↔
      outer.toInt = collapsedPlace size.toInt block.toInt (id.toInt - 1) + 1 ∧
        index.toInt = (id.toInt - 1) / block.toInt % size.toInt + 1 := by
  have hplace : 0 ≤ id.toInt - 1 := by omega
  have hzero := Long.fits_pred hid
  have hcollapse : collapse [.long id, .long size, .long block] = .ok (.long outer) ↔
      outer.toInt = collapsedPlace size.toInt block.toInt (id.toInt - 1) + 1 := by
    rw [(collapse_computes id size block).eq_ok_long_iff, and_iff_right ⟨hsize, hblock, hzero, hextent⟩,
      Int.tdiv_eq_ediv_of_nonneg hplace, Int.tmod_eq_emod_of_nonneg hplace, collapsedPlace]
  have halong : alongBlocks [.long id, .long block, .long size] = .ok (.long index) ↔
      index.toInt = (id.toInt - 1) / block.toInt % size.toInt + 1 := by
    rw [(alongBlocks_computes id block size).eq_ok_long_iff, and_iff_right ⟨hblock, hsize, hzero⟩,
      Int.tdiv_eq_ediv_of_nonneg hplace, Int.tmod_eq_emod_of_nonneg (Int.ediv_nonneg hplace hblock.le)]
  rw [parts, Prod.mk.injEq, hcollapse, halong]

/-- A positive identifier has both parts, and is combined from them. -/
theorem exists_parts (hsize : 0 < size.toInt) (hblock : 0 < block.toInt)
    (hextent : Long.Fits (size.toInt * block.toInt)) (hid : 0 < id.toInt) : ∃ outer index : Long,
      parts size block id = (.ok (.long outer), .ok (.long index)) ∧
      0 < outer.toInt ∧ 1 ≤ index.toInt ∧ index.toInt ≤ size.toInt ∧
      id.toInt = combinedPlace size.toInt block.toInt (outer.toInt - 1) (index.toInt - 1) + 1 := by
  have hzero := Long.fits_pred hid
  obtain ⟨outer, hcollapse, -⟩ := (collapse_computes id size block).exists_long ⟨hsize, hblock, hzero, hextent⟩
  obtain ⟨index, halong, -⟩ := (alongBlocks_computes id block size).exists_long ⟨hblock, hsize, hzero⟩
  have hparts : parts size block id = (.ok (.long outer), .ok (.long index)) := by rw [parts, hcollapse, halong]
  obtain ⟨houter, hindex⟩ := (parts_eq_iff hsize hblock hextent hid).1 hparts
  have hnonneg := collapsedPlace_nonneg (Int.sub_nonneg_of_le hid) hsize hblock
  have hdigit := Int.emod_nonneg ((id.toInt - 1) / block.toInt) hsize.ne'
  have hlt := Int.emod_lt_of_pos ((id.toInt - 1) / block.toInt) hsize
  refine ⟨outer, index, hparts, ?_, by omega, by omega, ?_⟩
  · rw [houter]
    exact Int.lt_add_one_of_le hnonneg
  · rw [houter, hindex, Int.add_sub_cancel, Int.add_sub_cancel, combinedPlace_collapsed hblock, Int.sub_add_cancel]

/-- With positive sizes whose product is a long, taking positive identifiers apart loses nothing: the parts are a
positive identifier and an index along the extent, different identifiers have different parts, and any such parts are
those of the identifier that is combined from them, if this is a long. -/
theorem parts_lossless (hsize : 0 < size.toInt) (hblock : 0 < block.toInt)
    (hextent : Long.Fits (size.toInt * block.toInt)) :
    (∀ id : Long, 0 < id.toInt → ∃ outer index : Long, parts size block id = (.ok (.long outer), .ok (.long index)) ∧
      0 < outer.toInt ∧ 1 ≤ index.toInt ∧ index.toInt ≤ size.toInt) ∧
    (∀ id id' : Long, 0 < id.toInt → 0 < id'.toInt → parts size block id = parts size block id' → id = id') ∧
    ∀ outer index id : Long, 0 < outer.toInt → 1 ≤ index.toInt → index.toInt ≤ size.toInt →
      id.toInt = combinedPlace size.toInt block.toInt (outer.toInt - 1) (index.toInt - 1) + 1 →
      0 < id.toInt ∧ parts size block id = (.ok (.long outer), .ok (.long index)) := by
  refine ⟨fun id hid => ?_, fun id id' hid hid' hsame => ?_, fun outer index id houter hindex hle hcombined => ?_⟩
  · obtain ⟨outer, index, hparts, houter, hindex, hle, -⟩ := exists_parts hsize hblock hextent hid
    exact ⟨outer, index, hparts, houter, hindex, hle⟩
  · obtain ⟨outer, index, hparts, -, -, -, hcombined⟩ := exists_parts hsize hblock hextent hid
    obtain ⟨outer', index', hparts', -, -, -, hcombined'⟩ := exists_parts hsize hblock hextent hid'
    rw [hsame, hparts'] at hparts
    cases hparts
    exact Int64.toInt_inj.1 (hcombined.trans hcombined'.symm)
  · have houter' : 0 ≤ outer.toInt - 1 := by omega
    have hindex' : 0 ≤ index.toInt - 1 := by omega
    have hnonneg := combinedPlace_nonneg houter' hindex' hsize hblock
    have hid : 0 < id.toInt := by omega
    obtain ⟨hcollapsed, hdigit⟩ := parts_combinedPlace (outer.toInt - 1) hblock hindex' (Int.sub_one_lt_of_le hle)
    refine ⟨hid, (parts_eq_iff hsize hblock hextent hid).2 ?_⟩
    rw [hcombined, Int.add_sub_cancel, hcollapsed, hdigit]
    exact ⟨by omega, by omega⟩

/-- Two sizes whose product is the greatest long, at the last identifier but one. -/
theorem parts_lossless_greatest : Long.Fits ((7 : Long).toInt * (1317624576693539401 : Long).toInt) ∧
    (∃ outer index : Long, parts 7 1317624576693539401 9223372036854775806 = (.ok (.long outer), .ok (.long index)) ∧
      0 < outer.toInt ∧ 1 ≤ index.toInt ∧ index.toInt ≤ (7 : Long).toInt) ∧
    parts 7 1317624576693539401 9223372036854775806 = (.ok (.long 1317624576693539400), .ok (.long 7)) := by
  have hsize : 0 < (7 : Long).toInt := by decide +kernel
  have hblock : 0 < (1317624576693539401 : Long).toInt := by decide +kernel
  have hextent : Long.Fits ((7 : Long).toInt * (1317624576693539401 : Long).toInt) := by decide +kernel
  obtain ⟨hexists, -, hcombined⟩ := parts_lossless hsize hblock hextent
  exact ⟨hextent, hexists _ (by decide +kernel), (hcombined _ _ _ (by decide +kernel) (by decide +kernel)
    (by decide +kernel) (by decide +kernel)).2⟩

end

end FragmentEngine.Index
