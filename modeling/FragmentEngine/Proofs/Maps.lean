import Std.Data.ExtTreeMap
/-!
# Maps with texts as keys

What insertion and removal leave of a map: the catalog and the memory store are both made of such maps.
-/

namespace FragmentEngine.Maps

variable {β : Type} {m : Std.ExtTreeMap String β compare} {k x : String} {v v' : β}

theorem mem_of_get (h : m[k]? = some v) : k ∈ m := Std.ExtTreeMap.mem_iff_isSome_getElem?.2 (by simp [h])

theorem get_of_mem (h : k ∈ m) : ∃ v, m[k]? = some v := ⟨m[k], Std.ExtTreeMap.getElem?_eq_some_getElem h⟩

/-- Keys are there or not by what is found under them. -/
theorem mem_congr {γ : Type} {m' : Std.ExtTreeMap String γ compare} {k' : String}
    (h : m[k]?.isSome = m'[k']?.isSome) : k ∈ m ↔ k' ∈ m' := by
  rw [Std.ExtTreeMap.mem_iff_isSome_getElem?, Std.ExtTreeMap.mem_iff_isSome_getElem?, h]

theorem mem_insert : x ∈ m.insert k v ↔ k = x ∨ x ∈ m := by simp

/-- Replacing a value leaves the keys as they are. -/
theorem mem_replace (h : k ∈ m) : x ∈ m.insert k v ↔ x ∈ m := by
  rw [mem_insert]
  refine ⟨?_, .inr⟩
  rintro (rfl | hx)
  · exact h
  · exact hx

theorem mem_erase : x ∈ m.erase k ↔ k ≠ x ∧ x ∈ m := by simp

theorem get_insert : (m.insert k v)[x]? = if k = x then some v else m[x]? := by
  simp [Std.ExtTreeMap.getElem?_insert]

theorem get_erase : (m.erase k)[x]? = if k = x then none else m[x]? := by
  simp [Std.ExtTreeMap.getElem?_erase]

theorem erase_insert_new (h : k ∉ m) : (m.insert k v).erase k = m := by
  refine Std.ExtTreeMap.ext_getElem? fun x => ?_
  rw [get_erase, get_insert]
  split
  · rename_i hx
    rw [← hx, Std.ExtTreeMap.getElem?_eq_none h]
  · rfl

theorem insert_insert_old (h : m[k]? = some v) : (m.insert k v').insert k v = m := by
  refine Std.ExtTreeMap.ext_getElem? fun x => ?_
  rw [get_insert, get_insert]
  split
  · rename_i hx
    rw [← hx, h]
  · rfl

/-- A map is made of its entries. -/
theorem foldl_insert_toList (m : Std.ExtTreeMap String β compare) :
    m.toList.foldl (fun m entry => m.insert entry.1 entry.2) ∅ = m := by
  rw [← Std.ExtTreeMap.insertMany_list_eq_foldl]
  refine Std.ExtTreeMap.ext_getElem? fun k => ?_
  cases hk : m[k]? with
  | some v =>
    exact Std.ExtTreeMap.getElem?_insertMany_list_of_mem Std.ReflCmp.compare_self Std.ExtTreeMap.distinct_keys_toList
      (Std.ExtTreeMap.mem_toList_iff_getElem?_eq_some.2 hk)
  | none =>
    have habsent : (m.toList.map Prod.fst).contains k = false := by
      rw [Std.ExtTreeMap.map_fst_toList_eq_keys, Std.ExtTreeMap.contains_keys,
        Std.ExtTreeMap.contains_eq_isSome_getElem?, hk]
      rfl
    rw [Std.ExtTreeMap.getElem?_insertMany_list_of_contains_eq_false habsent, Std.ExtTreeMap.getElem?_empty]

end FragmentEngine.Maps
