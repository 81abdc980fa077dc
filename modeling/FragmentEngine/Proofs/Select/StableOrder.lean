import FragmentEngine.Proofs.Select.PlainColumn
import FragmentEngine.Proofs.StableSort
import FragmentEngine.Proofs.TotalOrder
/-!
# Ordered selections

A selection is ordered by the values of a numeric column, which are its keys: integers by size, doubles by the total
order. The entries are sorted stably by them, and nothing is changed unless all keys can be read.
-/

namespace FragmentEngine

/-! ## Keys -/

namespace Value

/-- The order of the values of a numeric column. -/
inductive KeyLE : Value → Value → Prop
  | long {m n : Long} (le : m.toInt ≤ n.toInt) : KeyLE (.long m) (.long n)
  | double {x y : Binary64} (le : x.TotalLE y) : KeyLE (.double x) (.double y)

/-- The place of a number among those of its type. -/
def rank : Value → Int
  | .long n => n.toInt
  | .double x => x.totalRank
  | .str _ | .binary _ => 0

variable {v w : Value}

theorem keyLE_iff (numeric : v.isNumeric = true) (same : v.fieldType = w.fieldType) :
    KeyLE v w ↔ v.rank ≤ w.rank := by
  cases v <;> cases w <;> cases same <;> try cases numeric
  · exact ⟨fun | .double le => Binary64.totalLE_iff.1 le, fun le => .double (Binary64.totalLE_iff.2 le)⟩
  · exact ⟨fun | .long le => le, .long⟩

theorem rank_inj (numeric : v.isNumeric = true) (same : v.fieldType = w.fieldType) : v = w ↔ v.rank = w.rank := by
  refine ⟨congrArg rank, fun equal => ?_⟩
  cases v <;> cases w <;> cases same <;> try cases numeric
  · exact congrArg double (Binary64.totalRank_injective equal)
  · exact congrArg long (Int64.toInt_inj.1 equal)

theorem KeyLE.antisymm (le : KeyLE v w) (ge : KeyLE w v) : v = w := by
  cases le with
  | long le =>
    obtain ⟨ge⟩ := ge
    exact congrArg Value.long (Int64.toInt_inj.1 (Int.le_antisymm le ge))
  | double le =>
    obtain - | ⟨ge⟩ := ge
    rw [Binary64.totalLE_iff] at le ge
    exact congrArg Value.double (Binary64.totalRank_injective (Int.le_antisymm le ge))

end Value

/-- The key of a cell is the rank of its value. -/
theorem Fragment.sortKey_of_value {f : Fragment} {row column : Nat} {field : Field} {v : Value}
    (found : f.schema.fields[column]? = some field) (numeric : field.type.isNumeric = true)
    (value : f.value row column = .ok v) : f.sortKey row column = .ok v.rank := by
  obtain ⟨field', cell, found', -, decoded⟩ := Fragment.value_eq_ok value
  cases found.symm.trans found'
  unfold sortKey
  rw [value, Outcome.ok_bind, found]
  cases type : field.type with
  | string | blob =>
    rw [type] at numeric
    cases numeric
  | long | real =>
    have typed := Cell.fieldType_of_decode decoded
    rw [type] at typed
    cases v <;> cases typed
    simp only [type]
    rfl

/-! ## Sorting entries -/

/-- Items sorted by keys made for them are sorted by these. -/
theorem map_snd_sortByKey {α : Type} (key : α → Int) (xs : List α) :
    (sortByKey (xs.map fun x => (key x, x))).map Prod.snd = xs.insertionSort fun a b => key a ≤ key b := by
  have sorted := List.map_insertionSort (fun a b => key a ≤ key b) (fun a b : Int × α => a.1 ≤ b.1)
    (fun x => (key x, x)) xs fun _ _ _ _ => Iff.rfl
  rw [Selection.sortByKey_eq, ← sorted, List.map_map]
  exact List.map_id _

namespace Selection

variable {s t : Selection} {field : String} {sources : List Source} {input : Source} {source column : Nat}

/-- The rows that a selection stands for can be ordered by a named column: it is numeric, it has all of the rows, and
its cells can be read. -/
structure Orderable (s : Selection) (field : String) (sources : List Source) (input : Source) (source column : Nat) :
    Prop where
  resolved : resolveField field sources = .ok (source, column)
  known : sources[source]? = some input
  numeric : ∃ f, input.fragment.schema.fields[column]? = some f ∧ f.type.isNumeric = true
  inRange : ∀ k < s.size, s.row source k < input.fragment.rowCount
  decodes : ∀ row < input.fragment.rowCount, ∃ v, input.fragment.value row column = .ok v

/-- The keys of the entries are the values of the column in their rows. -/
def Keys (s : Selection) (input : Source) (source column : Nat) (key : Nat → Value) : Prop :=
  ∀ row ∈ s.rows, input.fragment.value (s.offsets.getD source 0 + row) column = .ok (key row)

theorem Orderable.exists_keys (h : s.Orderable field sources input source column) :
    ∃ key, s.Keys input source column key := by
  have value : ∀ row ∈ s.rows, ∃ v, input.fragment.value (s.offsets.getD source 0 + row) column = .ok v := by
    intro row mem
    obtain ⟨k, lt, rfl⟩ := List.getElem_of_mem mem
    refine h.decodes _ ?_
    have inRange := h.inRange k lt
    rwa [row_of_getElem? (List.getElem?_eq_getElem lt)] at inRange
  have : Nonempty Value := ⟨.long 0⟩
  choose! key keys using value
  exact ⟨key, keys⟩

/-- All keys are numbers of one type. -/
theorem Orderable.keys_typed (h : s.Orderable field sources input source column) {key : Nat → Value}
    (keys : s.Keys input source column key) :
    ∃ type : FieldType, type.isNumeric = true ∧ ∀ row ∈ s.rows, (key row).fieldType = type := by
  obtain ⟨f, found, numeric⟩ := h.numeric
  refine ⟨f.type, numeric, fun row mem => ?_⟩
  obtain ⟨f', cell, found', -, decoded⟩ := Fragment.value_eq_ok (keys row mem)
  cases found.symm.trans found'
  exact Cell.fieldType_of_decode decoded

/-- Entries sorted by the ranks of their keys are sorted by the keys. -/
theorem Orderable.isStableSort_of_rank (h : s.Orderable field sources input source column) {key : Nat → Value}
    (keys : s.Keys input source column key) {rows : List Nat}
    (sorted : IsStableSort (· ≤ ·) (fun row => (key row).rank) s.rows rows) :
    IsStableSort Value.KeyLE key s.rows rows := by
  obtain ⟨type, numeric, typed⟩ := h.keys_typed keys
  have alike : ∀ a ∈ s.rows, ∀ b ∈ s.rows, (key a).isNumeric = true ∧ (key a).fieldType = (key b).fieldType := by
    intro a ha b hb
    rw [Value.isNumeric_eq, typed a ha, typed b hb]
    exact ⟨numeric, rfl⟩
  refine sorted.of_keys (fun a ha b hb => ?_) fun a ha b hb => ?_
  · exact Value.keyLE_iff (alike a ha b hb).1 (alike a ha b hb).2
  · exact Value.rank_inj (alike a ha b hb).1 (alike a ha b hb).2

/-- Ordering succeeds where all keys can be read, and sorts the entries by them. -/
theorem Orderable.orderBy_eq (h : s.Orderable field sources input source column) {key : Nat → Value}
    (keys : s.Keys input source column key) :
    s.orderBy field sources = .ok ⟨s.offsets, s.rows.insertionSort fun a b => (key a).rank ≤ (key b).rank⟩ := by
  obtain ⟨f, found, numeric⟩ := h.numeric
  unfold orderBy
  rw [h.resolved, Outcome.ok_bind]
  dsimp only
  rw [h.known]
  refine Outcome.bind_eq_ok.2 ⟨s.rows.map fun row => ((key row).rank, row), ?_, ?_⟩
  · conv_rhs => rw [← List.zipIdx_map_fst 0 s.rows, List.map_map]
    rw [Outcome.mapM_eq_ok, List.forall₂_map_right_iff, List.forall₂_same]
    rintro ⟨row, k⟩ mem
    have entry := List.mem_zipIdx_iff_getElem?.1 mem
    dsimp only
    rw [row_of_getElem? entry, Fragment.sortKey_of_value found numeric (keys row (List.mem_of_getElem? entry))]
    rfl
  · rw [found, Option.any_some, numeric]
    simp only [Bool.not_true, Bool.false_eq_true, and_false, if_false]
    rw [map_snd_sortByKey]
    rfl

/-! ## In place -/

/-- Puts a selection in order in place. -/
def orderInPlace (field : String) (sources : List Source) : ExceptT Error (StateM Selection) Unit := do
  let s ← get
  let ordered ← s.orderBy field sources
  set ordered

/-- A selection is replaced only after everything else has succeeded. -/
theorem run_orderInPlace (s : Selection) (field : String) (sources : List Source) :
    (orderInPlace field sources).run.run s =
      match s.orderBy field sources with
      | .ok t => (.ok (), t)
      | .error error => (.error error, s) := by
  show (liftM (s.orderBy field sources) >>= set : ExceptT Error (StateM Selection) Unit).run.run s = _
  cases s.orderBy field sources <;> rfl

/-- Ordering by a numeric column whose cells can be read succeeds: the offsets stay, and the entries are sorted stably
by the values of the column, which is what any stable sort makes of them and what exchanging neighbours arrives at.
Wherever ordering fails it leaves the selection as it was. -/
theorem orderBy_isStableSort (s : Selection) (field : String) (sources : List Source) :
    (∀ input source column, s.Orderable field sources input source column →
      ∃ key t, s.Keys input source column key ∧ s.orderBy field sources = .ok t ∧ t.offsets = s.offsets ∧
        IsStableSort Value.KeyLE key s.rows t.rows ∧
        (∀ rows, IsStableSort Value.KeyLE key s.rows rows → rows = t.rows) ∧
        exchangeSort (fun a b => decide ((key b).rank < (key a).rank)) s.rows = t.rows ∧
        (orderInPlace field sources).run.run s = (.ok (), t)) ∧
    ∀ error t, (orderInPlace field sources).run.run s = (.error error, t) →
      s.orderBy field sources = .error error ∧ t = s := by
  rw [run_orderInPlace]
  refine ⟨fun input source column orderable => ?_, fun error t failed => ?_⟩
  · obtain ⟨key, keys⟩ := orderable.exists_keys
    have ordered := orderable.orderBy_eq keys
    have inserted := IsStableSort.insertionSort (fun row => (key row).rank) s.rows
    have exchanged := IsStableSort.exchangeSort (fun row => (key row).rank) s.rows
    have sorted := orderable.isStableSort_of_rank keys inserted
    refine ⟨key, _, keys, ordered, rfl, sorted, fun rows sorted' => ?_, ?_, by rw [ordered]⟩
    · exact sorted'.unique (fun _ _ => Value.KeyLE.antisymm) sorted
    · exact exchanged.unique (fun _ _ => le_antisymm) inserted
  · cases done : s.orderBy field sources with
    | ok _ =>
      rw [done] at failed
      cases failed
    | error _ =>
      rw [done] at failed
      cases failed
      exact ⟨rfl, rfl⟩

/-- A source with a column of doubles. -/
def ofDoubles (xs : List Binary64) : Source :=
  ⟨⟨"f", ⟨[⟨"v", .real, false⟩]⟩, xs.map fun x => ⟨[x.toBytes]⟩, false⟩, none, none⟩

theorem value_ofDoubles {xs : List Binary64} {row : Nat} (lt : row < xs.length) :
    (ofDoubles xs).fragment.value row 0 = .ok (.double xs[row]) := by
  have stored : (ofDoubles xs).fragment.records[row]? = some ⟨[xs[row].toBytes]⟩ := by
    rw [ofDoubles, List.getElem?_map, List.getElem?_eq_getElem lt, Option.map_some]
  unfold Fragment.value
  rw [stored]
  exact Cell.decode_of_encode (v := .double xs[row]) rfl

/-- A NaN without a sign is the last, one with a sign the first. -0 comes before 0, and the two entries of 0 stay in
order. A name that is not there changes nothing. -/
theorem orderBy_isStableSort_zeros :
    let xs : List Binary64 := [.ofInt 5, .nan, .zero, Binary64.neg .zero, .ofInt 1, .zero, Binary64.neg .nan]
    let s : Selection := ⟨[1], [0, 1, 2, 3, 4, 5]⟩
    s.Orderable "v" [ofDoubles xs] (ofDoubles xs) 0 0 ∧
      s.orderBy "v" [ofDoubles xs] = .ok ⟨[1], [5, 2, 1, 4, 3, 0]⟩ ∧
      (∃ key, s.Keys (ofDoubles xs) 0 0 key ∧ IsStableSort Value.KeyLE key s.rows [5, 2, 1, 4, 3, 0]) ∧
      ∃ error, (orderInPlace "w" [ofDoubles xs]).run.run s = (.error error, s) := by
  intro xs s
  have orderable : s.Orderable "v" [ofDoubles xs] (ofDoubles xs) 0 0 :=
    ⟨by decide +kernel, rfl, ⟨_, rfl, rfl⟩, by decide, fun row lt => ⟨_, value_ofDoubles lt⟩⟩
  have ordered : s.orderBy "v" [ofDoubles xs] = .ok ⟨[1], [5, 2, 1, 4, 3, 0]⟩ := by decide +kernel
  obtain ⟨key, t, keys, ordered', -, sorted, -⟩ := (orderBy_isStableSort s "v" [ofDoubles xs]).1 _ _ _ orderable
  cases ordered.symm.trans ordered'
  refine ⟨orderable, ordered, ⟨key, keys, sorted⟩, ?_⟩
  obtain ⟨error, t, failed⟩ : ∃ error t, (orderInPlace "w" [ofDoubles xs]).run.run s = (.error error, t) := ⟨_, _, rfl⟩
  obtain ⟨-, rfl⟩ := (orderBy_isStableSort s "w" [ofDoubles xs]).2 error t failed
  exact ⟨error, failed⟩

end Selection

end FragmentEngine
