import Mathlib.Algebra.BigOperators.Fin
import Mathlib.Algebra.Order.Ring.Int
import Mathlib.Tactic.Ring
import FragmentEngine.Proofs.Function.Index
/-!
# Indexes along extents

The indexes of an identifier along all extents of an array are the digits of its place, counted from zero, in the mixed
radix of the extents. They are in range and determine the identifier. An identifier before the first one has a place
below zero, and its indexes are out of range wherever the digit is not zero.
-/

namespace FragmentEngine.Index

variable {extents : List Long} {id : Long}

/-! ## Places -/

theorem extent_append (outer inner : List Long) : extent (outer ++ inner) = extent outer * extent inner := by
  induction outer with
  | nil => exact (Int.one_mul _).symm
  | cons size outer ih => rw [List.cons_append, extent_cons, extent_cons, ih, Int.mul_assoc]

/-- The extents that vary faster number no more cells than all of them. -/
theorem extent_drop_le (hpos : ∀ size ∈ extents, 0 < size.toInt) (k : Nat) :
    extent (extents.drop k) ≤ extent extents := by
  have houter : 0 < extent (extents.take k) := extent_pos fun size hsize => hpos size (List.mem_of_mem_take hsize)
  have hinner : 0 < extent (extents.drop k) := extent_pos fun size hsize => hpos size (List.mem_of_mem_drop hsize)
  calc extent (extents.drop k) ≤ extent (extents.take k) * extent (extents.drop k) :=
        le_mul_of_one_le_left hinner.le houter
    _ = extent extents := by rw [← extent_append, List.take_append_drop]

/-- A place in blocks: the block it lies in, and its place in this block. -/
theorem emod_mul_extent (place size : Int) {block : Int} (hblock : 0 < block) :
    place % (size * block) = place / block % size * block + place % block := by
  have hblocks := Int.mul_ediv_add_emod place block
  have hsize := Int.mul_ediv_add_emod (place / block) size
  have hall := Int.mul_ediv_add_emod place (size * block)
  rw [Int.mul_comm size block, ← Int.ediv_ediv_of_nonneg hblock.le, Int.mul_comm block size] at hall
  calc place % (size * block) = place - size * block * (place / block / size) := by omega
    _ = block * (size * (place / block / size) + place / block % size) + place % block
        - size * block * (place / block / size) := by rw [hsize, hblocks]
    _ = place / block % size * block + place % block := by ring

/-- The digits of a place make up the place, as far as there are cells. -/
theorem sum_digits (hpos : ∀ size ∈ extents, 0 < size.toInt) (place : Int) :
    ∑ k : Fin extents.length, place / extent (extents.drop (k + 1)) % extents[k].toInt * extent (extents.drop (k + 1)) =
      place % extent extents := by
  induction extents with
  | nil => simp
  | cons size extents ih =>
    rw [List.forall_mem_cons] at hpos
    rw [extent_cons, emod_mul_extent place size.toInt (extent_pos hpos.2), ← ih hpos.2]
    exact Fin.sum_univ_succ _

/-! ## Indexes -/

/-- The index of an identifier along the extent in place `k`. -/
def indexAlong (id : Long) (extents : List Long) (k : Fin extents.length) : Except Error Value :=
  along (.long id :: (extents.drop k).map .long)

theorem indexAlong_eq_digit (hpos : ∀ size ∈ extents, 0 < size.toInt) (hfits : Long.Fits (extent extents))
    (hfirst : 1 ≤ id.toInt) (k : Fin extents.length) : ∃ index : Long, indexAlong id extents k = .ok (.long index) ∧
      index.toInt = (id.toInt - 1) / extent (extents.drop (k + 1)) % extents[k].toInt + 1 := by
  have hplace : 0 ≤ id.toInt - 1 := by omega
  have hinner : ∀ size ∈ extents.drop (k + 1), 0 < size.toInt :=
    fun size hsize => hpos size (List.mem_of_mem_drop hsize)
  have hdefined : 0 < extents[k].toInt ∧ (∀ size ∈ extents.drop (k + 1), 0 < size.toInt) ∧
      Long.Fits (extent (extents.drop (k + 1))) ∧ Long.Fits (id.toInt - 1) := by
    refine ⟨hpos _ (List.getElem_mem _), hinner, ?_, Long.fits_pred hfirst⟩
    have hle := extent_drop_le hpos (k + 1)
    have hpositive := extent_pos hinner
    rw [Long.fits_iff] at hfits ⊢
    omega
  obtain ⟨index, hok, hindex⟩ := (along_computes id extents[k] (extents.drop (k + 1))).exists_long hdefined
  rw [Int.tdiv_eq_ediv_of_nonneg hplace,
    Int.tmod_eq_emod_of_nonneg (Int.ediv_nonneg hplace (extent_pos hinner).le)] at hindex
  refine ⟨index, ?_, hindex⟩
  rw [indexAlong, List.drop_eq_getElem_cons k.isLt]
  exact hok

/-- The indexes along all extents are in range, and they make up the identifier. -/
theorem exists_indexes (hpos : ∀ size ∈ extents, 0 < size.toInt) (hfits : Long.Fits (extent extents))
    (hfirst : 1 ≤ id.toInt) (hlast : id.toInt ≤ extent extents) : ∃ indexes : Fin extents.length → Long,
      (∀ k, indexAlong id extents k = .ok (.long (indexes k)) ∧
        1 ≤ (indexes k).toInt ∧ (indexes k).toInt ≤ extents[k].toInt) ∧
      id.toInt - 1 = ∑ k : Fin extents.length, ((indexes k).toInt - 1) * extent (extents.drop (k + 1)) := by
  choose indexes hok hindex using indexAlong_eq_digit hpos hfits hfirst
  refine ⟨indexes, fun k => ⟨hok k, ?_⟩, ?_⟩
  · have hsize := hpos extents[k] (List.getElem_mem _)
    have hnonneg := Int.emod_nonneg ((id.toInt - 1) / extent (extents.drop (k + 1))) hsize.ne'
    have hlt := Int.emod_lt_of_pos ((id.toInt - 1) / extent (extents.drop (k + 1))) hsize
    rw [hindex k]
    omega
  · simp only [hindex, Int.add_sub_cancel]
    rw [sum_digits hpos, Int.emod_eq_of_lt (by omega) (by omega)]

/-- The indexes of an identifier along the extents of an array are in range and determine the identifier: its place,
counted from zero, is the sum of the indexes, counted from zero, each times the number of cells of the later extents. -/
theorem indexes_determine (hpos : ∀ size ∈ extents, 0 < size.toInt) (hfits : Long.Fits (extent extents))
    (hfirst : 1 ≤ id.toInt) (hlast : id.toInt ≤ extent extents) :
    (∃ indexes : Fin extents.length → Long,
      (∀ k, indexAlong id extents k = .ok (.long (indexes k)) ∧
        1 ≤ (indexes k).toInt ∧ (indexes k).toInt ≤ extents[k].toInt) ∧
      id.toInt - 1 = ∑ k : Fin extents.length, ((indexes k).toInt - 1) * extent (extents.drop (k + 1))) ∧
    ∀ id' : Long, 1 ≤ id'.toInt → id'.toInt ≤ extent extents →
      (∀ k : Fin extents.length, indexAlong id' extents k = indexAlong id extents k) → id' = id := by
  obtain ⟨indexes, hindexes, hsum⟩ := exists_indexes hpos hfits hfirst hlast
  refine ⟨⟨indexes, hindexes, hsum⟩, fun id' hfirst' hlast' hsame => ?_⟩
  obtain ⟨indexes', hindexes', hsum'⟩ := exists_indexes hpos hfits hfirst' hlast'
  have hequal : indexes' = indexes := by
    funext k
    have hok := (hindexes' k).1.symm.trans ((hsame k).trans (hindexes k).1)
    exact Value.long.inj (Except.ok.inj hok)
  rw [hequal, ← hsum] at hsum'
  exact Int64.toInt_inj.1 (by omega)

/-- The last cell but one of an array that has as many as a long can count, in three extents. -/
theorem indexes_determine_greatest : let extents : List Long := [7, 7, 188232082384791343]
    (∀ size ∈ extents, 0 < size.toInt) ∧ extent extents = Long.greatest ∧
      (∀ k, ∃ index : Long, indexAlong 9223372036854775806 extents k = .ok (.long index) ∧
        1 ≤ index.toInt ∧ index.toInt ≤ extents[k].toInt) ∧
      ∀ id' : Long, 1 ≤ id'.toInt → id'.toInt ≤ extent extents →
        (∀ k, indexAlong id' extents k = indexAlong 9223372036854775806 extents k) → id' = 9223372036854775806 := by
  intro extents
  have hpos : ∀ size ∈ extents, 0 < size.toInt := List.forall_mem_cons.2 ⟨by decide +kernel,
    List.forall_mem_cons.2 ⟨by decide +kernel, List.forall_mem_singleton.2 (by decide +kernel)⟩⟩
  have hextent : extent extents = Long.greatest := by decide +kernel
  have hfirst : 1 ≤ (9223372036854775806 : Long).toInt := by decide +kernel
  have hlast : (9223372036854775806 : Long).toInt ≤ extent extents := by decide +kernel
  obtain ⟨⟨indexes, hindexes, -⟩, hdetermine⟩ := indexes_determine hpos (by rw [hextent]; decide) hfirst hlast
  exact ⟨hpos, hextent, fun k => ⟨indexes k, hindexes k⟩, hdetermine⟩

/-! ## Any identifiers -/

/-- Division toward zero makes digits of a place below zero that are below zero themselves, or zero. -/
theorem digit_nonneg_iff (place : Int) {block size : Int} (hblock : 0 < block) (hsize : 0 < size) :
    0 ≤ (place.tdiv block).tmod size ↔ 0 ≤ place ∨ size ∣ place.tdiv block := by
  rw [Int.dvd_iff_tmod_eq_zero]
  rcases (NearerZero.tdiv place hblock).trans (.tmod _ hsize) with h | h <;> omega

/-- The number `index` is one along an extent of `size` exactly if the identifier is positive or lies whole extents of
blocks before the first one. With an identifier that is not positive it is one at most, and above `1 - size`. -/
structure IndexOf (id size : Long) (block : Int) (index : Long) : Prop where
  inRange_iff : 1 ≤ index.toInt ∧ index.toInt ≤ size.toInt ↔ 1 ≤ id.toInt ∨ size.toInt ∣ (id.toInt - 1).tdiv block
  bounds : id.toInt < 1 → 1 - size.toInt < index.toInt ∧ index.toInt ≤ 1

theorem indexOf_digit {size index : Long} {block : Int} (hblock : 0 < block) (hsize : 0 < size.toInt)
    (hindex : index.toInt = ((id.toInt - 1).tdiv block).tmod size.toInt + 1) : IndexOf id size block index := by
  have hlt := Int.tmod_lt_of_pos ((id.toInt - 1).tdiv block) hsize
  have hgt := Int.lt_tmod_of_pos ((id.toInt - 1).tdiv block) hsize
  have hdigit := digit_nonneg_iff (id.toInt - 1) hblock hsize
  refine ⟨⟨fun h => (hdigit.1 (by omega)).imp_left fun _ => by omega, fun h => ?_⟩, fun hid => ?_⟩
  · have hnonneg := hdigit.2 (h.imp_left fun _ => by omega)
    omega
  · rcases (NearerZero.tdiv (id.toInt - 1) hblock).trans (.tmod _ hsize) with h | h <;> omega

/-- Whatever the identifier, a call that succeeds gives a long, and this is an index along the extent exactly if the
identifier is positive or lies whole extents of blocks before the first one. -/
theorem index_inRange_iff (args : List Long) (v : Value) :
    (along (args.map .long) = .ok v → ∃ (id outer : Long) (inner : List Long) (index : Long),
      args = id :: outer :: inner ∧ v = .long index ∧ IndexOf id outer (extent inner) index) ∧
    (alongBlocks (args.map .long) = .ok v → ∃ id block size index : Long,
      args = [id, block, size] ∧ v = .long index ∧ IndexOf id size block.toInt index) := by
  constructor
  · intro hok
    match args, hok with
    | id :: outer :: inner, hok =>
      obtain ⟨hdefined, rfl⟩ := (along_computes id outer inner).eq_ok_iff.1 hok
      have hfits := (along_computes id outer inner).fits hdefined
      exact ⟨id, outer, inner, _, rfl, rfl,
        indexOf_digit (extent_pos hdefined.2.1) hdefined.1 (Long.toInt_ofInt hfits)⟩
  · intro hok
    match args, hok with
    | [id, block, size], hok =>
      obtain ⟨hdefined, rfl⟩ := (alongBlocks_computes id block size).eq_ok_iff.1 hok
      have hfits := (alongBlocks_computes id block size).fits hdefined
      exact ⟨id, block, size, _, rfl, rfl, indexOf_digit hdefined.1 hdefined.2.1 (Long.toInt_ofInt hfits)⟩

/-- Seven places before the first one, and at the last one of an array. -/
theorem index_inRange_iff_bothSides :
    along [.long (-6), .long 4, .long 2] = .ok (.long (-2)) ∧ IndexOf (-6) 4 (extent [2]) (-2) ∧
    alongBlocks [.long 12, .long 2, .long 3] = .ok (.long 3) ∧ IndexOf 12 3 (2 : Long).toInt 3 := by
  have hbefore : along (([-6, 4, 2] : List Long).map .long) = .ok (.long (-2)) := by decide +kernel
  have hlast : alongBlocks (([12, 2, 3] : List Long).map .long) = .ok (.long 3) := by decide +kernel
  refine ⟨hbefore, ?_, hlast, ?_⟩
  · obtain ⟨id, outer, inner, index, hargs, hindex, h⟩ := (index_inRange_iff _ _).1 hbefore
    cases hargs
    cases hindex
    exact h
  · obtain ⟨id, block, size, index, hargs, hindex, h⟩ := (index_inRange_iff _ _).2 hlast
    cases hargs
    cases hindex
    exact h

/-- Right before the first identifier the index is zero, and further below it is negative. -/
theorem index_outOfRange : along [.long 0, .long 4] = .ok (.long 0) ∧
    alongBlocks [.long (-1), .long 1, .long 3] = .ok (.long (-1)) ∧
    ¬(1 ≤ (0 : Long).toInt ∧ (0 : Long).toInt ≤ (4 : Long).toInt) ∧
    ¬(1 ≤ (-1 : Long).toInt ∧ (-1 : Long).toInt ≤ (3 : Long).toInt) := by
  decide +kernel

end FragmentEngine.Index
