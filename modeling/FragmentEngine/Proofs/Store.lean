import FragmentEngine.Proofs.Maps
import FragmentEngine.Proofs.Outcome
import FragmentEngine.Store.Basic
/-!
# Databases kept in memory

When each operation of the store succeeds, which databases are there afterwards, and which fragments each of
them holds. A database that is not there holds none.
-/

namespace FragmentEngine.MemoryStore

variable {m m' : MemoryStore} {db name : String} {f : Fragment}

theorem fragments_insert (m : MemoryStore) (db : String) (fs : Std.ExtTreeMap String Fragment compare)
    (x : String) : fragments (m.insert db fs) x = if db = x then fs else m.fragments x := by
  unfold fragments
  rw [Std.ExtTreeMap.getD_insert]
  simp

theorem fragments_erase (m : MemoryStore) (db x : String) :
    fragments (m.erase db) x = if db = x then ∅ else m.fragments x := by
  unfold fragments
  rw [Std.ExtTreeMap.getD_erase]
  simp

theorem fragments_absent (h : db ∉ m) : m.fragments db = ∅ := Std.ExtTreeMap.getD_eq_fallback h

theorem mem_of_holds (h : name ∈ m.fragments db) : db ∈ m := by
  by_contra hdb
  rw [fragments_absent hdb] at h
  exact Std.ExtTreeMap.not_mem_empty h

/-! ## Databases -/

theorem putDatabase_eq_ok : m.putDatabase db = .ok m' ↔
    Name.check db = .ok () ∧ m' = if db ∈ m then m else m.insert db ∅ := by
  unfold putDatabase
  rw [Outcome.bind_eq_ok]
  constructor
  · rintro ⟨⟨⟩, hname, h⟩
    cases h
    exact ⟨hname, rfl⟩
  · rintro ⟨hname, rfl⟩
    exact ⟨(), hname, rfl⟩

theorem mem_putDatabase (h : m.putDatabase db = .ok m') (x : String) : x ∈ m' ↔ db = x ∨ x ∈ m := by
  obtain ⟨-, rfl⟩ := putDatabase_eq_ok.1 h
  split
  · rename_i hdb
    refine ⟨.inr, ?_⟩
    rintro (rfl | hx)
    · exact hdb
    · exact hx
  · exact Maps.mem_insert

/-- A database that is put is empty if it is new, and stays as it is if not. -/
theorem fragments_putDatabase (h : m.putDatabase db = .ok m') (x : String) : m'.fragments x = m.fragments x := by
  obtain ⟨-, rfl⟩ := putDatabase_eq_ok.1 h
  split
  · rfl
  · rename_i hdb
    rw [fragments_insert]
    split
    · rename_i hx
      rw [← hx, fragments_absent hdb]
    · rfl

theorem deleteDatabase_eq_ok : m.deleteDatabase db = .ok m' ↔ db ∈ m ∧ m' = m.erase db := by
  unfold deleteDatabase
  split
  · simp_all [eq_comm]
  · simp_all

theorem mem_deleteDatabase (h : m.deleteDatabase db = .ok m') (x : String) :
    x ∈ m' ↔ db ≠ x ∧ x ∈ m := by
  obtain ⟨-, rfl⟩ := deleteDatabase_eq_ok.1 h
  exact Maps.mem_erase

theorem fragments_deleteDatabase (h : m.deleteDatabase db = .ok m') (x : String) :
    m'.fragments x = if db = x then ∅ else m.fragments x := by
  obtain ⟨-, rfl⟩ := deleteDatabase_eq_ok.1 h
  exact fragments_erase m db x

/-! ## Fragments -/

theorem putFragment_eq_ok : m.putFragment db f = .ok m' ↔
    Name.check f.name = .ok () ∧ db ∈ m ∧ m' = m.insert db ((m.fragments db).insert f.name f) := by
  unfold putFragment
  rw [Outcome.bind_eq_ok]
  cases hm : m[db]? with
  | none =>
    have hdb : db ∉ m := fun hdb => by simp [Std.ExtTreeMap.getElem?_eq_some_getElem hdb] at hm
    simp [hdb, throw, throwThe, MonadExceptOf.throw]
  | some fs =>
    have hdb : db ∈ m := Maps.mem_of_get hm
    have hfs : m.fragments db = fs := by simp [fragments, Std.ExtTreeMap.getD_eq_getD_getElem?, hm]
    rw [hfs]
    constructor
    · rintro ⟨⟨⟩, hname, h⟩
      cases h
      exact ⟨hname, hdb, rfl⟩
    · rintro ⟨hname, -, rfl⟩
      exact ⟨(), hname, rfl⟩

theorem mem_putFragment (h : m.putFragment db f = .ok m') (x : String) : x ∈ m' ↔ x ∈ m := by
  obtain ⟨-, hdb, rfl⟩ := putFragment_eq_ok.1 h
  exact Maps.mem_replace hdb

theorem fragments_putFragment (h : m.putFragment db f = .ok m') (x : String) :
    m'.fragments x = if db = x then (m.fragments db).insert f.name f else m.fragments x := by
  obtain ⟨-, -, rfl⟩ := putFragment_eq_ok.1 h
  exact fragments_insert m db _ x

theorem getFragment_eq_ok : m.getFragment db name = .ok f ↔ (m.fragments db)[name]? = some f := by
  unfold getFragment
  split <;> simp_all

theorem deleteFragment_eq_ok : m.deleteFragment db name = .ok m' ↔
    name ∈ m.fragments db ∧ m' = m.insert db ((m.fragments db).erase name) := by
  unfold deleteFragment
  split
  · simp_all [eq_comm]
  · simp_all

theorem mem_deleteFragment (h : m.deleteFragment db name = .ok m') (x : String) : x ∈ m' ↔ x ∈ m := by
  obtain ⟨hname, rfl⟩ := deleteFragment_eq_ok.1 h
  exact Maps.mem_replace (mem_of_holds hname)

theorem fragments_deleteFragment (h : m.deleteFragment db name = .ok m') (x : String) :
    m'.fragments x = if db = x then (m.fragments db).erase name else m.fragments x := by
  obtain ⟨-, rfl⟩ := deleteFragment_eq_ok.1 h
  exact fragments_insert m db _ x

/-! ## Which fragments a store holds -/

theorem holds_deleteDatabase (h : m.deleteDatabase db = .ok m') (x n : String) :
    n ∈ m'.fragments x ↔ db ≠ x ∧ n ∈ m.fragments x := by
  rw [fragments_deleteDatabase h]
  by_cases hx : db = x <;> simp [hx]

theorem holds_putFragment (h : m.putFragment db f = .ok m') (x n : String) :
    n ∈ m'.fragments x ↔ (db = x ∧ f.name = n) ∨ n ∈ m.fragments x := by
  rw [fragments_putFragment h]
  by_cases hx : db = x
  · subst hx
    simp
  · simp [hx]

theorem holds_deleteFragment (h : m.deleteFragment db name = .ok m') (x n : String) :
    n ∈ m'.fragments x ↔ ¬(db = x ∧ name = n) ∧ n ∈ m.fragments x := by
  rw [fragments_deleteFragment h]
  by_cases hx : db = x
  · subst hx
    simp
  · simp [hx]

end FragmentEngine.MemoryStore
