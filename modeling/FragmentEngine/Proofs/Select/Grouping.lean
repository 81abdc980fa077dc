import Mathlib.Data.List.Induction
import Mathlib.Data.List.Sort
import Mathlib.Data.Multiset.Filter
import FragmentEngine.Proofs.Select.Binding
import FragmentEngine.Select.Grouping
/-!
# Groups share out a selection

Grouping puts the entries of a selection into groups one after the other. At each step the groups share out the
entries so far by their keys. So each entry ends up in the one group of its key, and which rows come together does
not depend on the order in which they are selected.
-/

namespace FragmentEngine

namespace Group

/-- Groups share out the entries below `size`: every entry is in the one group of its key. Members ascend, and the
groups come in the order of their first members. -/
structure SharesOut (keyAt : Nat → Except Error String) (size : Nat) (groups : List Group) : Prop where
  nonempty : ∀ g ∈ groups, g.members ≠ []
  ascending : ∀ g ∈ groups, g.members.Pairwise (· < ·)
  shared : (groups.flatMap members).Perm (List.range size)
  distinct : (groups.map key).Nodup
  keyed : ∀ g ∈ groups, ∀ k ∈ g.members, keyAt k = .ok g.key
  ordered : groups.Pairwise fun g h => ∀ j ∈ g.members.head?, ∀ k ∈ h.members.head?, j < k

/-! ## One entry -/

/-- An entry makes a new group at the end or is added to the group of its key. -/
theorem insert_cases (key : String) (k : Nat) (groups : List Group) :
    (key ∉ groups.map Group.key ∧ insert key k groups = groups ++ [⟨key, [k]⟩]) ∨
      ∃ before members after, groups = before ++ ⟨key, members⟩ :: after ∧
        insert key k groups = before ++ ⟨key, members ++ [k]⟩ :: after := by
  induction groups with
  | nil => exact .inl ⟨List.not_mem_nil, rfl⟩
  | cons g rest ih =>
    rw [insert]
    split
    next same =>
      subst same
      exact .inr ⟨[], g.members, rest, rfl, rfl⟩
    next other =>
      rcases ih with ⟨absent, eq⟩ | ⟨before, members, after, rfl, eq⟩
      · refine .inl ⟨?_, by rw [eq]; rfl⟩
        rw [List.map_cons, List.mem_cons, not_or]
        exact ⟨Ne.symm other, absent⟩
      · exact .inr ⟨g :: before, members, after, rfl, by rw [eq]; rfl⟩

namespace SharesOut

variable {keyAt : Nat → Except Error String} {size : Nat} {groups : List Group} {g : Group} {key : String} {k : Nat}

theorem empty (keyAt : Nat → Except Error String) : SharesOut keyAt 0 [] where
  nonempty := nofun
  ascending := nofun
  shared := .refl _
  distinct := List.nodup_nil
  keyed := nofun
  ordered := .nil

theorem lt_size (h : SharesOut keyAt size groups) (hg : g ∈ groups) (hk : k ∈ g.members) : k < size :=
  List.mem_range.1 (h.shared.mem_iff.1 (List.mem_flatMap.2 ⟨g, hg, hk⟩))

/-- The next entry is the first of a new group, the last one. -/
theorem insert_new (h : SharesOut keyAt size groups) (hkey : keyAt size = .ok key)
    (absent : key ∉ groups.map Group.key) :
    SharesOut keyAt (size + 1) (groups ++ [⟨key, [size]⟩]) where
  nonempty := List.forall_mem_append.2 ⟨h.nonempty, List.forall_mem_singleton.2 (List.cons_ne_nil _ _)⟩
  ascending := List.forall_mem_append.2 ⟨h.ascending, List.forall_mem_singleton.2 (List.pairwise_singleton _ _)⟩
  shared := by
    rw [List.flatMap_append, List.flatMap_singleton, List.range_succ]
    exact h.shared.append_right _
  distinct := by
    rw [List.map_append, List.map_singleton]
    refine List.nodup_append.2 ⟨h.distinct, List.pairwise_singleton _ _, ?_⟩
    rintro other mem _ hnew rfl
    rw [List.mem_singleton.1 hnew] at mem
    exact absent mem
  keyed := by
    refine List.forall_mem_append.2 ⟨h.keyed, List.forall_mem_singleton.2 fun k hk => ?_⟩
    rw [List.mem_singleton.1 hk]
    exact hkey
  ordered := by
    refine List.pairwise_append.2 ⟨h.ordered, List.pairwise_singleton _ _, fun g hg last hlast j hj k hk => ?_⟩
    rw [List.mem_singleton.1 hlast] at hk
    obtain rfl : size = k := Option.some.inj hk
    exact h.lt_size hg (List.mem_of_mem_head? hj)

/-- The next entry is the last member of the group of its key. -/
theorem insert_old {before after : List Group} {members : List Nat}
    (h : SharesOut keyAt size (before ++ ⟨key, members⟩ :: after)) (hkey : keyAt size = .ok key) :
    SharesOut keyAt (size + 1) (before ++ ⟨key, members ++ [size]⟩ :: after) where
  nonempty := by
    have others := h.nonempty
    rw [List.forall_mem_append, List.forall_mem_cons] at others ⊢
    exact ⟨others.1, List.append_ne_nil_of_right_ne_nil _ (List.cons_ne_nil _ _), others.2.2⟩
  ascending := by
    have below : ∀ k ∈ members, k < size := fun k hk => h.lt_size (g := ⟨key, members⟩) (by simp) hk
    have others := h.ascending
    rw [List.forall_mem_append, List.forall_mem_cons] at others ⊢
    refine ⟨others.1, List.pairwise_append.2 ⟨others.2.1, List.pairwise_singleton _ _, ?_⟩, others.2.2⟩
    intro k hk last hlast
    rw [List.mem_singleton.1 hlast]
    exact below k hk
  shared := by
    have shared := h.shared
    rw [List.flatMap_append, List.flatMap_cons] at shared ⊢
    rw [List.range_succ]
    -- the new member moves from the end of its group to the end of all
    refine .trans ?_ (shared.append_right [size])
    rw [List.append_assoc, List.append_assoc, List.append_assoc]
    exact (List.perm_append_comm.append_left members).append_left _
  distinct := by
    have distinct := h.distinct
    rw [List.map_append, List.map_cons] at distinct ⊢
    exact distinct
  keyed := by
    have keyed := h.keyed
    rw [List.forall_mem_append, List.forall_mem_cons] at keyed ⊢
    refine ⟨keyed.1, List.forall_mem_append.2 ⟨keyed.2.1, List.forall_mem_singleton.2 hkey⟩, keyed.2.2⟩
  ordered := by
    have first : (members ++ [size]).head? = members.head? :=
      List.head?_append_of_ne_nil _ (h.nonempty ⟨key, members⟩ (by simp))
    have ordered := h.ordered
    simp only [List.pairwise_append, List.pairwise_cons, List.forall_mem_cons, first] at ordered ⊢
    exact ordered

/-- One more entry is shared out. -/
theorem insert (h : SharesOut keyAt size groups) (hkey : keyAt size = .ok key) :
    SharesOut keyAt (size + 1) (Group.insert key size groups) := by
  rcases insert_cases key size groups with ⟨absent, eq⟩ | ⟨before, members, after, rfl, eq⟩
  · exact eq ▸ h.insert_new hkey absent
  · exact eq ▸ h.insert_old hkey

end SharesOut

/-! ## All entries -/

/-- The groups of entries share them out by their keys. -/
theorem sharesOut_collect {keyAt : Nat → Except Error String} {keys : List String}
    (h : ∀ k (hk : k < keys.length), keyAt k = .ok keys[k]) : SharesOut keyAt keys.length (collect keys.zipIdx) := by
  induction keys using List.reverseRecOn with
  | nil => exact .empty keyAt
  | append_singleton keys key ih =>
    have before : ∀ k (hk : k < keys.length), keyAt k = .ok keys[k] := fun k hk => by
      rw [h k (by simp; omega), List.getElem_append_left hk]
    have last : keyAt keys.length = .ok key := by
      rw [h keys.length (by simp), List.getElem_concat_length rfl]
    have shape : collect (keys ++ [key]).zipIdx = Group.insert key keys.length (collect keys.zipIdx) := by
      unfold collect
      rw [List.zipIdx_append, List.foldl_append, Nat.zero_add]
      rfl
    rw [shape, List.length_append, List.length_singleton]
    exact (ih before).insert last

section Selected

variable {context : Context} {sources : List Source} {selection : Selection} {e : Expr} {groups : List Group}

/-- The key of an entry: the text of the value that the grouping expression has there. -/
def keyAt (context : Context) (sources : List Source) (selection : Selection) (e : Expr) (k : Nat) :
    Except Error String := e.valueAt context sources selection k >>= Value.groupKey

theorem keyOf_eq {binder : RowBinder} (bound : RowBinder.bind e sources context.args = .ok binder) :
    keyOf context sources selection binder e = keyAt context sources selection e := by
  funext k
  unfold keyOf keyAt
  rw [Expr.valueAt_bound bound, bind_assoc]

/-- Entries paired with their keys are the numbered keys. -/
theorem mapM_numbered {f : Nat → Except Error String} {n : Nat} {numbered : List (String × Nat)} :
    (List.range n).mapM (fun k => do return (← f k, k)) = .ok numbered ↔
      ∃ keys, (List.range n).mapM f = .ok keys ∧ numbered = keys.zipIdx := by
  have paired (ks : List Nat) :
      ks.mapM (fun k => do return (← f k, k)) = (ks.mapM f).map fun keys => keys.zip ks := by
    induction ks with
    | nil => rfl
    | cons k ks ih =>
      rw [List.mapM_cons, List.mapM_cons, ih]
      cases f k with
      | error _ => rfl
      | ok key => cases ks.mapM f <;> rfl
  rw [paired, Outcome.map_eq_ok]
  refine exists_congr fun keys => and_congr_right fun h => ?_
  have length : keys.length = n := (Outcome.mapM_range_eq_ok.1 h).1
  rw [List.zipIdx_eq_zip_range', ← List.range_eq_range', length]
  exact eq_comm

/-- A selection is grouped if the expression is without aggregates and over identifier columns, and has a key at every
entry. -/
theorem ofSelection_eq_ok : ofSelection context sources selection e = .ok groups ↔
    e.isAggregating context.registry = false ∧ ∃ binder, RowBinder.bind e sources context.args = .ok binder ∧
      binder.bindings.forM (checkBinding sources) = .ok () ∧
      ∃ keys, (List.range selection.size).mapM (keyAt context sources selection e) = .ok keys ∧
        groups = collect keys.zipIdx := by
  unfold ofSelection
  split
  next aggregating =>
    rw [aggregating]
    exact ⟨nofun, fun h => nomatch h.1⟩
  next plain =>
    rw [Bool.not_eq_true] at plain
    refine Outcome.bind_eq_ok.trans ?_
    simp only [plain, true_and]
    refine exists_congr fun binder => and_congr_right fun bound => ?_
    rw [Outcome.bind_eq_ok, keyOf_eq bound]
    constructor
    · rintro ⟨_, checked, done⟩
      obtain ⟨numbered, paired, done⟩ := Outcome.bind_eq_ok.1 done
      obtain ⟨keys, found, rfl⟩ := mapM_numbered.1 paired
      cases done
      exact ⟨checked, keys, found, rfl⟩
    · rintro ⟨checked, keys, found, rfl⟩
      exact ⟨(), checked, Outcome.bind_eq_ok.2 ⟨_, mapM_numbered.2 ⟨keys, found, rfl⟩, rfl⟩⟩

/-- The groups of a selection share out its entries. -/
theorem SharesOut.of_ofSelection (h : ofSelection context sources selection e = .ok groups) :
    SharesOut (keyAt context sources selection e) selection.size groups := by
  obtain ⟨-, binder, -, -, keys, found, rfl⟩ := ofSelection_eq_ok.1 h
  obtain ⟨length, found⟩ := Outcome.mapM_range_eq_ok.1 found
  rw [← length]
  exact sharesOut_collect found

end Selected

/-! ## Another order of the rows -/

/-- The rows of a group, as often as they are selected. -/
def rows (selection : Selection) (g : Group) : Multiset Nat := g.members.map fun k => selection.rows.getD k 0

namespace SharesOut

variable {keyAt : Nat → Except Error String} {size : Nat} {groups : List Group} {g : Group} {key : String} {k : Nat}

/-- A group has all the entries of its key. -/
theorem members_eq (h : SharesOut keyAt size groups) (hg : g ∈ groups) :
    g.members = (List.range size).filter fun k => keyAt k = .ok g.key := by
  refine (h.ascending g hg).eq_of_mem_iff (List.pairwise_lt_range.filter _) fun k => ?_
  rw [List.mem_filter, decide_eq_true_eq]
  constructor
  · exact fun hk => ⟨List.mem_range.2 (h.lt_size hg hk), h.keyed g hg k hk⟩
  · rintro ⟨hk, hkey⟩
    obtain ⟨g', hg', hk⟩ := List.mem_flatMap.1 (h.shared.mem_iff.2 hk)
    have same : g'.key = g.key := Except.ok.inj ((h.keyed g' hg' k hk).symm.trans hkey)
    rwa [List.inj_on_of_nodup_map h.distinct hg' hg same] at hk

/-- There is a group for every key that occurs. -/
theorem mem_keys (h : SharesOut keyAt size groups) : key ∈ groups.map Group.key ↔ ∃ k < size, keyAt k = .ok key := by
  constructor
  · intro mem
    obtain ⟨g, hg, rfl⟩ := List.mem_map.1 mem
    obtain ⟨k, hk⟩ := List.exists_mem_of_ne_nil _ (h.nonempty g hg)
    exact ⟨k, h.lt_size hg hk, h.keyed g hg k hk⟩
  · rintro ⟨k, hk, hkey⟩
    obtain ⟨g, hg, hk⟩ := List.mem_flatMap.1 (h.shared.mem_iff.2 (List.mem_range.2 hk))
    rw [h.keyed g hg k hk] at hkey
    cases hkey
    exact List.mem_map_of_mem hg

end SharesOut

section Rows

variable {s s' : Selection} {keyOfRow : Nat → Except Error String} {groups groups' : List Group}

/-- The rows of all entries are the selected rows. -/
theorem map_getD_range (rows : List Nat) : (List.range rows.length).map (fun k => rows.getD k 0) = rows :=
  List.ext_getElem (by simp) fun k hk hk' => by simp [hk']

/-- If keys depend on rows only, a group has all the selected rows of its key. -/
theorem SharesOut.rows_eq {g : Group} (h : SharesOut (fun k => keyOfRow (s.rows.getD k 0)) s.size groups)
    (hg : g ∈ groups) : g.rows s = (s.rows : Multiset Nat).filter fun row => keyOfRow row = .ok g.key := by
  have filtered := List.filter_map (p := fun row => decide (keyOfRow row = .ok g.key))
    (f := fun k => s.rows.getD k 0) (l := List.range s.rows.length)
  rw [map_getD_range] at filtered
  rw [Multiset.filter_coe, filtered, rows, h.members_eq hg]
  rfl

/-- If keys depend on rows only, permuted rows come together as before. -/
theorem SharesOut.perm (h : SharesOut (fun k => keyOfRow (s.rows.getD k 0)) s.size groups)
    (h' : SharesOut (fun k => keyOfRow (s'.rows.getD k 0)) s'.size groups') (perm : s'.rows.Perm s.rows) :
    (groups'.map fun g => (g.key, g.rows s')).Perm (groups.map fun g => (g.key, g.rows s)) := by
  let family (key : String) : String × Multiset Nat :=
    (key, (s.rows : Multiset Nat).filter fun row => keyOfRow row = .ok key)
  have here : groups.map (fun g => (g.key, g.rows s)) = (groups.map key).map family := by
    rw [List.map_map]
    exact List.map_congr_left fun g hg => by rw [h.rows_eq hg]; rfl
  have there : groups'.map (fun g => (g.key, g.rows s')) = (groups'.map key).map family := by
    rw [List.map_map]
    exact List.map_congr_left fun g hg => by rw [h'.rows_eq hg, Multiset.coe_eq_coe.2 perm]; rfl
  have occurs (rows : List Nat) (key : String) :
      (∃ k < rows.length, keyOfRow (rows.getD k 0) = .ok key) ↔ ∃ row ∈ rows, keyOfRow row = .ok key := by
    constructor
    · rintro ⟨k, hk, hkey⟩
      exact ⟨_, List.getElem_mem hk, by simpa [hk] using hkey⟩
    · rintro ⟨_, mem, hkey⟩
      obtain ⟨k, hk, rfl⟩ := List.getElem_of_mem mem
      exact ⟨k, hk, by simpa [hk] using hkey⟩
  rw [here, there]
  refine .map _ ((List.perm_ext_iff_of_nodup h'.distinct h.distinct).2 fun key => ?_)
  rw [h.mem_keys, h'.mem_keys]
  have same : (∃ row ∈ s'.rows, keyOfRow row = .ok key) ↔ ∃ row ∈ s.rows, keyOfRow row = .ok key :=
    exists_congr fun row => and_congr_left' perm.mem_iff
  exact (occurs s'.rows key).trans (same.trans (occurs s.rows key).symm)

end Rows

variable {context : Context} {sources : List Source} {selection : Selection} {e : Expr} {groups : List Group}

/-- The key of an entry by its row. -/
def keyOfRow (context : Context) (sources : List Source) (offsets : List Nat) (e : Expr) (row : Nat) :
    Except Error String := keyAt context sources ⟨offsets, [row]⟩ e 0

theorem keyAt_eq (context : Context) (sources : List Source) (selection : Selection) (e : Expr) :
    keyAt context sources selection e =
      fun k => keyOfRow context sources selection.offsets e (selection.rows.getD k 0) := by
  funext k
  exact congrArg (· >>= Value.groupKey) (Expr.valueAt_congr fun i => rfl)

/-- Groups share out the entries of a selection by their keys. In any order of the same rows the same rows come
together, under the same keys. -/
theorem sharesOut_in_any_order (h : ofSelection context sources selection e = .ok groups) :
    SharesOut (keyAt context sources selection e) selection.size groups ∧
    ∀ rows, rows.Perm selection.rows →
      ∃ groups', ofSelection context sources { selection with rows := rows } e = .ok groups' ∧
        (groups'.map fun g => (g.key, g.rows { selection with rows := rows })).Perm
          (groups.map fun g => (g.key, g.rows selection)) := by
  have shared := SharesOut.of_ofSelection h
  refine ⟨shared, fun rows perm => ?_⟩
  obtain ⟨plain, binder, bound, checked, keys, found, -⟩ := ofSelection_eq_ok.1 h
  obtain ⟨keys', found'⟩ : ∃ keys', (List.range rows.length).mapM
      (keyAt context sources { selection with rows := rows } e) = .ok keys' := by
    refine Outcome.mapM_total fun k hk => ?_
    have hk : k < rows.length := List.mem_range.1 hk
    obtain ⟨j, hj, same⟩ := List.getElem_of_mem (perm.subset (List.getElem_mem hk))
    obtain ⟨length, found⟩ := Outcome.mapM_range_eq_ok.1 found
    have lt : j < keys.length := length ▸ hj
    refine ⟨keys[j], ?_⟩
    rw [← found j lt, keyAt_eq, keyAt_eq]
    simp [hk, hj, same]
  have regrouped := ofSelection_eq_ok.2 ⟨plain, binder, bound, checked, keys', found', rfl⟩
  have shared' := SharesOut.of_ofSelection regrouped
  rw [keyAt_eq] at shared shared'
  exact ⟨_, regrouped, shared.perm shared' perm⟩

/-- A source whose identifiers are 1 to 6. -/
def six : Source :=
  ⟨⟨"f", ⟨[⟨"id", .long, false⟩]⟩, [1, 2, 3, 4, 5, 6].map fun id => ⟨[Long.toBytes id]⟩, false⟩, none, none⟩

/-- In blocks of two, identifiers 4, 1, 3, 2, 6, 5 come together as 1 to 6 do, but block 2 comes first. -/
theorem sharesOut_in_any_order_blocks :
    let context : Context := ⟨.builtin, [], 0⟩
    let e : Expr := .call "oph_id" [.variable "id", .literal (.long 2)]
    let permuted : Selection := ⟨[0], [3, 0, 2, 1, 5, 4]⟩
    ofSelection context [six] (.full 6) e = .ok [⟨"1", [0, 1]⟩, ⟨"2", [2, 3]⟩, ⟨"3", [4, 5]⟩] ∧
      ofSelection context [six] permuted e = .ok [⟨"2", [0, 2]⟩, ⟨"1", [1, 3]⟩, ⟨"3", [4, 5]⟩] ∧
      permuted.rows.Perm (Selection.full 6).rows ∧
      SharesOut (keyAt context [six] (.full 6) e) 6 [⟨"1", [0, 1]⟩, ⟨"2", [2, 3]⟩, ⟨"3", [4, 5]⟩] ∧
      ([⟨"2", [0, 2]⟩, ⟨"1", [1, 3]⟩, ⟨"3", [4, 5]⟩].map fun g : Group => (g.key, g.rows permuted)).Perm
        ([⟨"1", [0, 1]⟩, ⟨"2", [2, 3]⟩, ⟨"3", [4, 5]⟩].map fun g : Group => (g.key, g.rows (.full 6))) := by
  intro context e permuted
  have grouped : ofSelection context [six] (.full 6) e = .ok [⟨"1", [0, 1]⟩, ⟨"2", [2, 3]⟩, ⟨"3", [4, 5]⟩] := by
    decide +kernel
  have regrouped : ofSelection context [six] permuted e = .ok [⟨"2", [0, 2]⟩, ⟨"1", [1, 3]⟩, ⟨"3", [4, 5]⟩] := by
    decide +kernel
  have perm : permuted.rows.Perm (Selection.full 6).rows := by decide
  obtain ⟨shared, any⟩ := sharesOut_in_any_order grouped
  obtain ⟨groups', regrouped', same⟩ := any permuted.rows perm
  cases regrouped.symm.trans regrouped'
  exact ⟨grouped, regrouped, perm, shared, same⟩

end Group

end FragmentEngine
