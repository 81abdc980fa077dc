import Mathlib.Data.List.Perm.Subperm
import FragmentEngine.Proofs.Outcome
import FragmentEngine.Fragment.Basic
/-!
# Reordered fragments

A list of row indices is accepted as an order if there are as many as rows, every index is a row and none occurs twice.
These lists are the permutations of the rows: each rearranges them without losing any. Of any other list the first thing
that is wrong is told, and the fragment stays as it is.
-/

namespace FragmentEngine

/-- The items at given places of a list that has them all. -/
theorem forall₂_filterMap_getElem? {α : Type} {xs : List α} {places : List Nat} (inside : ∀ i ∈ places, i < xs.length) :
    List.Forall₂ (fun i x => xs[i]? = some x) places (places.filterMap (xs[·]?)) := by
  induction places with
  | nil => exact .nil
  | cons i places ih =>
    rw [List.forall_mem_cons] at inside
    have found : xs[i]? = some xs[i] := List.getElem?_eq_getElem inside.1
    rw [List.filterMap_cons, found]
    exact .cons found (ih inside.2)

/-- Items that were put in the places of a permutation are all items. -/
theorem perm_of_placed {α : Type} {xs ys : List α} {places : List Nat} (perm : places.Perm (List.range xs.length))
    (placed : List.Forall₂ (fun i y => xs[i]? = some y) places ys) : ys.Perm xs := by
  have found : places.map (xs[·]?) = ys.map some := by
    rw [← List.forall₂_eq_eq_eq, List.forall₂_map_left_iff, List.forall₂_map_right_iff]
    exact placed
  have inPlace : (List.range xs.length).map (xs[·]?) = xs.map some := by
    refine List.ext_getElem (by simp) fun i _ lt => ?_
    rw [List.length_map] at lt
    simp [lt]
  have some_perm : (ys.map some).Perm (xs.map some) := by
    rw [← found, ← inPlace]
    exact perm.map (xs[·]?)
  exact (List.map_perm_map_iff fun _ _ => Option.some.inj).1 some_perm

/-- Among as many indices as there are none is missing, unless one is repeated or out of range. -/
theorem perm_range_of_nodup {count : Nat} {order : List Nat} (distinct : order.Nodup) (inside : ∀ i ∈ order, i < count)
    (length : order.length = count) : order.Perm (List.range count) := by
  have among : order.Subperm (List.range count) := distinct.subperm fun i mem => List.mem_range.2 (inside i mem)
  exact among.perm_of_length_le (Nat.le_of_eq (by rw [List.length_range, length]))

namespace Fragment

/-- No index is invalid if they are all in range and none is repeated or was seen before. -/
theorem firstInvalid_eq_none_iff {count : Nat} {seen order : List Nat} :
    firstInvalid count seen order = none ↔ order.Nodup ∧ ∀ i ∈ order, i < count ∧ i ∉ seen := by
  induction order generalizing seen with
  | nil => simp [firstInvalid]
  | cons i order ih =>
    rw [firstInvalid, List.nodup_cons, List.forall_mem_cons]
    split
    next valid =>
      simp only [ih, List.mem_cons, not_or]
      constructor
      · rintro ⟨distinct, others⟩
        exact ⟨⟨fun again => (others i again).2.1 rfl, distinct⟩, valid, fun j mem => ⟨(others j mem).1, (others j mem).2.2⟩⟩
      · rintro ⟨⟨once, distinct⟩, -, others⟩
        refine ⟨distinct, fun j mem => ⟨(others j mem).1, ?_, (others j mem).2⟩⟩
        rintro rfl
        exact once mem
    next invalid => exact ⟨nofun, fun ⟨_, valid, _⟩ => absurd valid invalid⟩

/-- The first invalid index is out of range or repeated, and those before it are valid. -/
theorem exists_of_firstInvalid_eq_some {count i : Nat} {seen order : List Nat}
    (invalid : firstInvalid count seen order = some i) :
    ∃ before after, order = before ++ i :: after ∧ firstInvalid count seen before = none ∧
      (count ≤ i ∨ i ∈ before ∨ i ∈ seen) := by
  induction order generalizing seen with
  | nil => cases invalid
  | cons j order ih =>
    rw [firstInvalid] at invalid
    split at invalid
    next valid =>
      obtain ⟨before, after, rfl, fine, bad⟩ := ih invalid
      refine ⟨j :: before, after, rfl, by rwa [firstInvalid, if_pos valid], ?_⟩
      simp only [List.mem_cons] at bad ⊢
      tauto
    next wrong =>
      cases invalid
      refine ⟨[], order, rfl, rfl, ?_⟩
      rw [not_and_or, not_not] at wrong
      exact wrong.imp Nat.le_of_not_lt .inr

/-- The lists that are accepted as orders are the permutations of the rows. -/
theorem perm_iff_valid {count : Nat} {order : List Nat} :
    order.Perm (List.range count) ↔ order.length = count ∧ firstInvalid count [] order = none := by
  rw [firstInvalid_eq_none_iff]
  constructor
  · intro perm
    refine ⟨by rw [perm.length_eq, List.length_range], perm.nodup_iff.2 List.nodup_range, fun i mem => ?_⟩
    exact ⟨List.mem_range.1 (perm.mem_iff.1 mem), List.not_mem_nil⟩
  · rintro ⟨length, distinct, valid⟩
    exact perm_range_of_nodup distinct (fun i mem => (valid i mem).1) length

/-- A permutation of the rows puts each row in its new place. -/
theorem reorder_of_perm {f : Fragment} {order : List Nat} (perm : order.Perm (List.range f.rowCount)) :
    ∃ records, f.reorder order = .ok { f with records := records } ∧
      List.Forall₂ (fun i r => f.records[i]? = some r) order records := by
  have inside : ∀ i ∈ order, i < f.rowCount := fun i mem => List.mem_range.1 (perm.mem_iff.1 mem)
  obtain ⟨length, valid⟩ := perm_iff_valid.1 perm
  refine ⟨_, ?_, forall₂_filterMap_getElem? inside⟩
  rw [reorder, if_neg (not_not.2 length), valid]

/-! ## Refusals -/

/-- What is wrong with a list that is no order of the rows: its length, or else the first index in it that is no row or
stands there again. -/
inductive Misordered (f : Fragment) (order : List Nat) : Error → Prop
  | length (h : order.length ≠ f.rowCount) : Misordered f order (.exec .permutationLength)
  | index {before after : List Nat} {i : Nat} (h : order.length = f.rowCount) (place : order = before ++ i :: after)
      (valid : before.Nodup ∧ ∀ j ∈ before, j < f.rowCount) (invalid : f.rowCount ≤ i ∨ i ∈ before) :
      Misordered f order (.exec (.permutationIndex i))

theorem reorder_of_not_perm {f : Fragment} {order : List Nat} (other : ¬order.Perm (List.range f.rowCount)) :
    ∃ error, Misordered f order error ∧ f.reorder order = .error error := by
  rw [perm_iff_valid, not_and] at other
  by_cases length : order.length = f.rowCount
  · obtain ⟨i, invalid⟩ := Option.ne_none_iff_exists'.1 (other length)
    obtain ⟨before, after, place, fine, bad⟩ := exists_of_firstInvalid_eq_some invalid
    obtain ⟨distinct, inside⟩ := firstInvalid_eq_none_iff.1 fine
    refine ⟨_, .index length place ⟨distinct, fun j mem => (inside j mem).1⟩ ?_, ?_⟩
    · exact bad.imp id fun again => again.resolve_right List.not_mem_nil
    · rw [reorder, if_neg (not_not.2 length), invalid]
  · exact ⟨_, .length length, if_pos length⟩

/-! ## In place -/

/-- Rearranges the rows of a fragment in place. -/
def reorderInPlace (order : List Nat) : ExceptT Error (StateM Fragment) Unit := do
  let f ← get
  if order.length ≠ f.rowCount then throw (.exec .permutationLength)
  match firstInvalid f.rowCount [] order with
  | some i => throw (.exec (.permutationIndex i))
  | none => set { f with records := order.filterMap (f.records[·]?) }

/-- The rows are replaced only after both checks. -/
theorem run_reorderInPlace (f : Fragment) (order : List Nat) :
    (reorderInPlace order).run.run f =
      match f.reorder order with
      | .ok g => (.ok (), g)
      | .error error => (.error error, f) := by
  unfold reorder
  show StateT.run (if order.length ≠ f.rowCount then _ else _ : ExceptT Error (StateM Fragment) Unit) f = _
  by_cases wrong : order.length ≠ f.rowCount
  · rw [if_pos wrong, if_pos wrong]
    rfl
  · rw [if_neg wrong, if_neg wrong]
    show StateT.run (match firstInvalid f.rowCount [] order with
      | some _ => _
      | none => _ : ExceptT Error (StateM Fragment) Unit) f = _
    cases firstInvalid f.rowCount [] order <;> rfl

/-- A list of row indices is accepted exactly if it is a permutation of the rows. Then row `i` is the old row `order[i]`,
the rows are the same ones, and nothing else has changed. Any other list is refused for what is wrong with it, and the
fragment stays as it was. -/
theorem reorder_iff_perm (f : Fragment) (order : List Nat) :
    (order.Perm (List.range f.rowCount) → ∃ g, f.reorder order = .ok g ∧
      (reorderInPlace order).run.run f = (.ok (), g) ∧ g = { f with records := g.records } ∧
        List.Forall₂ (fun old r => f.records[old]? = some r) order g.records ∧ g.records.Perm f.records) ∧
    (¬order.Perm (List.range f.rowCount) → ∃ error, f.reorder order = .error error ∧
      (reorderInPlace order).run.run f = (.error error, f) ∧ Misordered f order error) := by
  rw [run_reorderInPlace]
  constructor
  · intro perm
    obtain ⟨records, reordered, placed⟩ := reorder_of_perm perm
    rw [reordered]
    exact ⟨_, rfl, rfl, rfl, placed, perm_of_placed perm placed⟩
  · intro other
    obtain ⟨error, wrong, refused⟩ := reorder_of_not_perm other
    rw [refused]
    exact ⟨error, rfl, rfl, wrong⟩

/-- Three rows, the last one put first. A list with a repeated index and one with an index that is no row are refused for
that index. -/
theorem reorder_iff_perm_threeRows :
    let f : Fragment := ⟨"f", ⟨[⟨"b", .blob, false⟩]⟩, [⟨[[1]]⟩, ⟨[[2]]⟩, ⟨[[3]]⟩], false⟩
    [2, 0, 1].Perm (List.range f.rowCount) ∧
      (∃ g, f.reorder [2, 0, 1] = .ok g ∧ g.records = [⟨[[3]]⟩, ⟨[[1]]⟩, ⟨[[2]]⟩] ∧ g.records.Perm f.records) ∧
      (∀ order ∈ [[0, 0, 1], [0, 7, 1], [0, 1]], ¬order.Perm (List.range f.rowCount) ∧
        ∃ error, (reorderInPlace order).run.run f = (.error error, f) ∧ Misordered f order error) := by
  intro f
  have turned : [2, 0, 1].Perm (List.range f.rowCount) := by decide
  obtain ⟨g, reordered, -, -, -, same⟩ := (reorder_iff_perm f [2, 0, 1]).1 turned
  refine ⟨turned, ⟨g, reordered, ?_, same⟩, fun order listed => ?_⟩
  · cases reordered
    rfl
  · have other : ¬order.Perm (List.range f.rowCount) := by
      revert order
      decide
    obtain ⟨error, -, kept, wrong⟩ := (reorder_iff_perm f order).2 other
    exact ⟨other, error, kept, wrong⟩

end Fragment

end FragmentEngine
