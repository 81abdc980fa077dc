import Mathlib.Data.List.Sort
import FragmentEngine.Proofs.Select.GroupedColumn
import FragmentEngine.Proofs.Select.InnerJoin
import FragmentEngine.Select.Request
/-!
# Entries stand for rows

Every entry of a selection stands for a row that each source has. The alignment makes it so, and the stages behind it
only choose among the entries and reorder them. Groups are made of places in the selection, and so is all that a
projection looks at.
-/

namespace FragmentEngine

/-- There is an offset for every source, and every entry gives a row of every source. -/
structure Selection.InRange (s : Selection) (sources : List Source) : Prop where
  offsets : s.offsets.length = sources.length
  rows : ∀ i input, sources[i]? = some input → ∀ k < s.size, s.row i k < input.fragment.rowCount

namespace Selection

variable {context : Context} {sources : List Source} {s t : Selection}

theorem row_of_getElem? {k row : Nat} (entry : s.rows[k]? = some row) (source : Nat) :
    s.row source k = s.offsets.getD source 0 + row := by
  simp only [Selection.row, List.getD_eq_getElem?_getD, entry, Option.getD_some]

theorem InRange.of_subset (h : s.InRange sources) (hoffsets : t.offsets = s.offsets) (hrows : t.rows ⊆ s.rows) :
    t.InRange sources where
  offsets := hoffsets ▸ h.offsets
  rows i input hinput k hk := by
    have hk : k < t.rows.length := hk
    obtain ⟨j, hj, hsame⟩ := List.getElem_of_mem (hrows (List.getElem_mem hk))
    have hrow : t.row i k = s.row i j := by
      rw [row_of_getElem? (List.getElem?_eq_getElem hk), row_of_getElem? (List.getElem?_eq_getElem hj), hoffsets, hsame]
    exact hrow ▸ h.rows i input hinput j hj

/-! ## WHERE -/

theorem full_inRange (input : Source) : (full input.fragment.rowCount).InRange [input] where
  offsets := rfl
  rows i input' hinput k hk := by
    have hk : k < input.fragment.rowCount := by simpa [full, size] using hk
    obtain ⟨rfl, rfl⟩ : i = 0 ∧ input' = input := by
      cases i with
      | zero => exact ⟨rfl, (Option.some.inj hinput).symm⟩
      | succ i => cases hinput
    simp [row, full, hk]

theorem Aligns.inRange {low : Int} (h : s.Aligns sources low) : s.InRange sources where
  offsets := h.offsets
  rows i input hinput k hk := by
    obtain ⟨hi, rfl⟩ := List.getElem?_eq_some_iff.1 hinput
    obtain ⟨id, -, hcombines⟩ := h.combines k hk
    have hcarries := (List.forall₂_iff_get.1 hcombines).2 i hi (by simpa [rowsAt] using hi)
    simpa [rowsAt] using hcarries.1

theorem candidates_inRange {hasCondition : Bool} (h : candidates sources hasCondition = .ok s) :
    s.InRange sources := by
  rcases candidates_eq_ok h with ⟨only, rfl, rfl⟩ | ⟨-, low, haligns⟩
  · exact full_inRange only
  · exact haligns.inRange

theorem filter_inRange {condition : Option Expr} (h : filter context sources condition = .ok s) :
    s.InRange sources := by
  cases condition with
  | none =>
    obtain ⟨c, hc, h⟩ := Outcome.bind_eq_ok.1 h
    cases h
    exact candidates_inRange hc
  | some e =>
    obtain ⟨-, c, binder, choice, hc, -, -, rfl⟩ := filter_eq_ok_iff.1 h
    refine (candidates_inRange hc).of_subset rfl ?_
    rw [rows_candidates hc]
    exact List.filter_sublist.subset

/-! ## ORDER BY and windows -/

/-- Sorting by keys is insertion sort. -/
theorem sortByKey_eq {α : Type} (items : List (Int × α)) :
    sortByKey items = items.insertionSort fun a b => a.1 ≤ b.1 := by
  have inserted (x : Int × α) (items : List (Int × α)) :
      insertByKey x items = items.orderedInsert (fun a b => a.1 ≤ b.1) x := by
    induction items with
    | nil => rfl
    | cons y items ih => rw [insertByKey, List.orderedInsert_cons, ih]
  unfold sortByKey List.insertionSort
  congr 1
  funext x rest
  exact inserted x rest

theorem orderBy_inRange {field : String} (h : s.InRange sources) (ht : s.orderBy field sources = .ok t) :
    t.InRange sources := by
  obtain ⟨⟨source, column⟩, -, ht⟩ := Outcome.bind_eq_ok.1 ht
  dsimp only at ht
  split at ht
  · cases ht
  obtain ⟨keyed, hkeyed, ht⟩ := Outcome.bind_eq_ok.1 ht
  split at ht
  · cases ht
  cases ht
  refine h.of_subset rfl fun row hrow => ?_
  -- a key belongs to the row it was made for
  obtain ⟨item, hitem, rfl⟩ := List.mem_map.1 hrow
  rw [sortByKey_eq, List.mem_insertionSort] at hitem
  obtain ⟨⟨row, k⟩, hentry, hkey⟩ := Outcome.exists_of_mem (Outcome.mapM_eq_ok.1 hkeyed) hitem
  obtain ⟨key, -, hkey⟩ := Outcome.bind_eq_ok.1 hkey
  cases hkey
  exact List.fst_mem_of_mem_zipIdx hentry

theorem apply_inRange (w : Window) (h : s.InRange sources) : (w.apply s).InRange sources := by
  refine h.of_subset rfl fun row hrow => ?_
  unfold Window.apply at hrow
  dsimp only at hrow
  split at hrow
  · exact List.mem_of_mem_drop hrow
  · exact List.mem_of_mem_drop (List.mem_of_mem_take hrow)

theorem selection_inRange {r : SelectRequest} {condition : Option Expr}
    (h : r.selection context sources condition = .ok s) : s.InRange sources := by
  obtain ⟨kept, hkept, h⟩ := Outcome.bind_eq_ok.1 h
  have hrange := filter_inRange hkept
  dsimp only at h
  split at h
  · obtain ⟨ordered, hordered, h⟩ := Outcome.bind_eq_ok.1 h
    have hordered := orderBy_inRange hrange hordered
    split at h
    · exact Except.ok.inj h ▸ apply_inRange _ hordered
    · exact Except.ok.inj h ▸ hordered
  · split at h
    · exact Except.ok.inj h ▸ apply_inRange _ hrange
    · exact Except.ok.inj h ▸ hrange

end Selection

/-! ## Groups and projection -/

namespace Projection

variable {sources : List Source} {selection : Selection}

/-- The groups of a select, if it has any, are made of places in the selection, and none is empty. -/
def Grouped (selection : Selection) (groups : Option (List Group)) : Prop :=
  ∀ gs ∈ groups, ∀ g ∈ gs, g.members ≠ [] ∧ ∀ k ∈ g.members, k < selection.size

variable {groups : Option (List Group)}

theorem grouped_of_mapM {context : Context} {groupBy : Option Expr}
    (h : groupBy.mapM (Group.ofSelection context sources selection) = .ok groups) : Grouped selection groups := by
  cases groupBy with
  | none =>
    cases h
    exact nofun
  | some e =>
    obtain ⟨gs, hgs, h⟩ := Outcome.bind_eq_ok.1 h
    cases h
    rintro _ ⟨⟩ g hg
    exact ⟨Group.members_ne_nil hgs g hg, fun k hk => (Group.SharesOut.of_ofSelection hgs).lt_size hg hk⟩

/-- A column that copies a source looks at places in the selection. -/
theorem shownEntries_lt (h : Grouped selection groups) {keyed : Bool} {k : Nat}
    (hk : k ∈ shownEntries selection groups keyed) : k < selection.size := by
  unfold shownEntries at hk
  split at hk
  · exact List.mem_range.1 hk
  · rename_i gs
    split at hk
    · obtain ⟨g, hg, hlast⟩ := List.mem_filterMap.1 hk
      exact (h gs rfl g hg).2 k (List.mem_of_getLast? hlast)
    · obtain ⟨g, hg, hk⟩ := List.mem_flatMap.1 hk
      exact (h gs rfl g hg).2 k hk

/-- A column of an expression looks at places in the selection. -/
theorem visits_lt (h : Grouped selection groups) {lastOnly : Bool} {v : Visit}
    (hv : v ∈ visits selection groups lastOnly) : v.entry < selection.size := by
  unfold visits at hv
  split at hv
  · obtain ⟨k, hk, rfl⟩ := List.mem_map.1 hv
    exact List.mem_range.1 hk
  · rename_i gs
    obtain ⟨g, hg, hv⟩ := List.mem_flatMap.1 hv
    split at hv
    · obtain ⟨k, hk, rfl⟩ : ∃ k, k ∈ g.members.getLast? ∧ ⟨true, true, k⟩ = v := by
        simpa [Visit.lastOnly] using hv
      exact (h gs rfl g hg).2 k (List.mem_of_getLast? hk)
    · obtain ⟨⟨k, i⟩, hk, rfl⟩ := List.mem_map.1 hv
      exact (h gs rfl g hg).2 k (List.fst_mem_of_mem_zipIdx hk)

end Projection

theorem Fragment.column_lt {f : Fragment} {name : String} {column : Nat} (h : f.column name = .ok column) :
    column < f.schema.width := by
  unfold Fragment.column at h
  split at h
  · rename_i i hi
    cases h
    have hname := (List.getElem?_eq_some_iff.1 (Schema.getElem?_of_lastIndex hi)).1
    rwa [Schema.names, List.length_map] at hname
  · cases h

/-- What a field name stands for is a column of a source. -/
theorem resolveField_lt {name : String} {sources : List Source} {i column : Nat}
    (h : resolveField name sources = .ok (i, column)) :
    ∃ input, sources[i]? = some input ∧ column < input.fragment.schema.width := by
  unfold resolveField at h
  split at h
  · dsimp only at h
    split at h
    · rename_i input j hfind
      obtain ⟨column', hcolumn, h⟩ := Outcome.bind_eq_ok.1 h
      cases h
      exact ⟨input, List.mem_zipIdx_iff_getElem?.1 (List.mem_of_find?_eq_some hfind), Fragment.column_lt hcolumn⟩
    · cases h
  · split at h
    · rename_i only
      obtain ⟨column', hcolumn, h⟩ := Outcome.bind_eq_ok.1 h
      cases h
      exact ⟨only, rfl, Fragment.column_lt hcolumn⟩
    · cases h
    · cases h

/-- A select whose condition can be applied looks at no row, entry, source or column that is not there: each of its
stages leaves entries that stand for rows, its groups are made of these, the projection looks at nothing else, and field
names stand for columns of sources. -/
theorem SelectRequest.inRange_of_filter {r : SelectRequest} {context : Context} {sources : List Source}
    {condition : Option Expr} {kept : Selection} (h : Selection.filter context sources condition = .ok kept) :
    kept.InRange sources ∧
    (∀ field ordered, r.order = some field → kept.orderBy field sources = .ok ordered → ordered.InRange sources) ∧
    (∀ selection, r.selection context sources condition = .ok selection → selection.InRange sources ∧
      ∀ (groupBy : Option Expr) groups, groupBy.mapM (Group.ofSelection context sources selection) = .ok groups →
        Projection.Grouped selection groups ∧
        (∀ keyed, ∀ k ∈ Projection.shownEntries selection groups keyed, k < selection.size) ∧
        ∀ lastOnly, ∀ v ∈ Projection.visits selection groups lastOnly, v.entry < selection.size) ∧
    ∀ name i column, resolveField name sources = .ok (i, column) →
      ∃ input, sources[i]? = some input ∧ column < input.fragment.schema.width := by
  have hkept := Selection.filter_inRange h
  refine ⟨hkept, fun _ _ _ hordered => Selection.orderBy_inRange hkept hordered, fun selection hselection => ?_,
    fun _ _ _ => resolveField_lt⟩
  refine ⟨Selection.selection_inRange hselection, fun groupBy groups hgroups => ?_⟩
  have hgrouped := Projection.grouped_of_mapM hgroups
  exact ⟨hgrouped, fun _ _ => Projection.shownEntries_lt hgrouped, fun _ _ => Projection.visits_lt hgrouped⟩

/-- Identifiers 1 to 3 joined with 2 to 4: of the shared ones the second is shown, in a group of its own. -/
def SelectRequest.lastShared : SelectRequest where
  name := "out"
  fields := ["a.id"]
  aliases := []
  condition := some "a.id > 1"
  group := ["b.id"]
  order := some "b.id"
  window := some ⟨1, 0⟩
  sequentialId := none

theorem SelectRequest.inRange_of_filter_lastShared :
    let context : Context := ⟨.builtin, [], 0⟩
    let sources := [Selection.counting "a" 1 3, Selection.counting "b" 2 3]
    let condition := some (Expr.binary (.variable "a.id") .gt (.literal (.long 1)))
    Selection.filter context sources condition = .ok ⟨[1, 0], [0, 1]⟩ ∧
      lastShared.selection context sources condition = .ok ⟨[1, 0], [1]⟩ ∧
      Group.ofSelection context sources ⟨[1, 0], [1]⟩ (.variable "b.id") = .ok [⟨"3", [0]⟩] ∧
      (⟨[1, 0], [0, 1]⟩ : Selection).InRange sources ∧ (⟨[1, 0], [1]⟩ : Selection).InRange sources ∧
      Projection.Grouped ⟨[1, 0], [1]⟩ (some [⟨"3", [0]⟩]) := by
  intro context sources condition
  have kept : Selection.filter context sources condition = .ok ⟨[1, 0], [0, 1]⟩ := by decide +kernel
  have shown : lastShared.selection context sources condition = .ok ⟨[1, 0], [1]⟩ := by decide +kernel
  have grouped : Group.ofSelection context sources ⟨[1, 0], [1]⟩ (.variable "b.id") = .ok [⟨"3", [0]⟩] := by
    decide +kernel
  obtain ⟨hkept, -, hshown, -⟩ := inRange_of_filter (r := lastShared) kept
  obtain ⟨hrange, hgroups⟩ := hshown _ shown
  obtain ⟨hgrouped, -⟩ := hgroups (some (.variable "b.id")) (some [⟨"3", [0]⟩]) (by rw [Option.mapM_some, grouped]; rfl)
  exact ⟨kept, shown, grouped, hkept, hrange, hgrouped⟩

end FragmentEngine
