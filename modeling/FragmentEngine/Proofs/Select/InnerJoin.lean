import FragmentEngine.Proofs.Select.Binding
import FragmentEngine.Select.Join
/-!
# The positional join is the inner join

Several sources are joined by offsets into their rows, and identifiers are compared only with their
neighbours. Since the identifiers of each source count up by one, entry `k` of an alignment stands for the
identifier `low + k` in every source, so that a filtered join is the relational one: the combinations of rows
with a common identifier that satisfy the condition.
-/

namespace FragmentEngine

/-! ## Identifiers -/

/-- A row of a fragment has an identifier. -/
def Fragment.Carries (f : Fragment) (row : Nat) (id : Long) : Prop :=
  row < f.rowCount ∧ ∃ column v,
    f.idColumn = .ok column ∧ f.value row column = .ok v ∧ v.toLong "identifier" = .ok id

namespace Fragment

theorem Carries.unique {f : Fragment} {row : Nat} {a b : Long} (ha : f.Carries row a) (hb : f.Carries row b) :
    a = b := by
  obtain ⟨-, column, v, hc, hv, ha⟩ := ha
  obtain ⟨-, column', v', hc', hv', hb⟩ := hb
  rw [hc] at hc'; cases hc'
  rw [hv] at hv'; cases hv'
  rw [ha] at hb; cases hb
  rfl

/-- The identifiers in row order are those that the rows carry. -/
theorem ids_eq_ok {f : Fragment} {ids : List Long} (h : f.ids = .ok ids) :
    ids.length = f.rowCount ∧ ∀ row (hr : row < ids.length), f.Carries row ids[row] := by
  obtain ⟨column, hc, h⟩ := Outcome.bind_eq_ok.1 h
  obtain ⟨hl, h⟩ := Outcome.mapM_range_eq_ok.1 h
  refine ⟨hl, fun row hr => ?_⟩
  obtain ⟨v, hv, hid⟩ := Outcome.bind_eq_ok.1 (h row hr)
  exact ⟨hl ▸ hr, column, v, hc, hv, hid⟩

end Fragment

theorem checkConsecutive_eq_ok {name : String} {first : Int} {row : Nat} {ids : List Long}
    (h : checkConsecutive name first row ids = .ok ()) :
    ∀ i (hi : i < ids.length), ids[i].toInt = first + row + i := by
  induction ids generalizing row with
  | nil => intro i hi; cases hi
  | cons id rest ih =>
    rw [checkConsecutive] at h
    split at h
    · cases h
    next expected he =>
      split at h
      next same =>
        intro i hi
        cases i with
        | zero => simp [same, Long.ofInt?_eq_some he]
        | succ i =>
          rw [List.getElem_cons_succ, ih h i (by simpa using hi)]
          omega
      · cases h

/-- The identifiers of a fragment are the numbers from `first` to `last`, in row order. -/
structure Fragment.Counts (f : Fragment) (first last : Int) : Prop where
  count : (f.rowCount : Int) = last - first + 1
  carries : ∀ row < f.rowCount, ∃ id, f.Carries row id ∧ id.toInt = first + row

namespace Fragment

/-- The row of an identifier is its distance from the first one. -/
theorem Counts.row_eq {f : Fragment} {first last : Int} (h : f.Counts first last) {row : Nat} {id : Long}
    (hc : f.Carries row id) : id.toInt = first + row := by
  obtain ⟨id', hc', e⟩ := h.carries row hc.1
  rw [hc.unique hc', e]

theorem counts_of_idRange {f : Fragment} {first last : Long} (h : f.idRange = .ok (some (first, last))) :
    f.Counts first.toInt last.toInt ∧ 0 < f.rowCount := by
  obtain ⟨ids, hids, h⟩ := Outcome.bind_eq_ok.1 h
  obtain ⟨hl, carries⟩ := ids_eq_ok hids
  split at h
  next a b ha hb =>
    obtain ⟨_, checked, h⟩ := Outcome.bind_eq_ok.1 h
    cases h
    have consecutive := checkConsecutive_eq_ok checked
    have ne : ids ≠ [] := fun e => by simp [e] at ha
    have pos : 0 < ids.length := List.length_pos_iff.2 ne
    have lastEq : last = ids[ids.length - 1] := by
      rw [List.getLast?_eq_getElem?, List.getElem?_eq_getElem (by omega)] at hb
      exact (Option.some.inj hb).symm
    refine ⟨⟨?_, fun row hr => ?_⟩, hl ▸ pos⟩
    · rw [lastEq, consecutive _ (by omega), ← hl]
      omega
    · have hr' : row < ids.length := hl ▸ hr
      exact ⟨ids[row], carries row hr', by rw [consecutive row hr']; omega⟩
  · cases h

theorem empty_of_idRange {f : Fragment} (h : f.idRange = .ok none) : f.rowCount = 0 := by
  obtain ⟨ids, hids, h⟩ := Outcome.bind_eq_ok.1 h
  split at h
  · obtain ⟨-, -, h⟩ := Outcome.bind_eq_ok.1 h
    cases h
  next hn =>
    rw [← (ids_eq_ok hids).1, List.length_eq_zero_iff]
    cases ids with
    | nil => rfl
    | cons id rest => exact absurd (List.getLast?_eq_some_getLast (List.cons_ne_nil id rest)) (hn _ _ rfl)

end Fragment

/-! ## Alignment -/

/-- Rows with a common identifier, one of each source. -/
def Combines (sources : List Source) (rows : List Nat) (id : Long) : Prop :=
  List.Forall₂ (fun s row => s.fragment.Carries row id) sources rows

/-- Entry `k` of a selection stands for the identifier `low + k` in every source, and every identifier that all
sources share has its entry. -/
structure Selection.Aligns (s : Selection) (sources : List Source) (low : Int) : Prop where
  offsets : s.offsets.length = sources.length
  rows : s.rows = List.range s.size
  combines : ∀ k < s.size, ∃ id : Long, id.toInt = low + k ∧ Combines sources (s.rowsAt sources k) id
  complete : ∀ rows id, Combines sources rows id →
    ∃ k < s.size, id.toInt = low + k ∧ rows = s.rowsAt sources k

/-- The ranges found for the sources: none if a source has no rows. -/
theorem mapM_id_cases {α : Type} (xs : List (Option α)) :
    (∃ ys, xs.mapM id = some ys ∧ xs = ys.map some) ∨ (xs.mapM id = none ∧ none ∈ xs) := by
  induction xs with
  | nil => exact .inl ⟨[], rfl, rfl⟩
  | cons x rest ih =>
    cases x with
    | none => exact .inr ⟨rfl, by simp⟩
    | some a =>
      rcases ih with ⟨ys, h, e⟩ | ⟨h, mem⟩
      · exact .inl ⟨a :: ys, by simp [List.mapM_cons, h], by simp [e]⟩
      · exact .inr ⟨by simp [List.mapM_cons, h], by simp [mem]⟩

section Counted

variable {sources : List Source} {ranges : List (Long × Long)}

/-- The identifiers of each source are those of its range. -/
def Counted (sources : List Source) (ranges : List (Long × Long)) : Prop :=
  List.Forall₂ (fun s r => s.fragment.Counts r.1.toInt r.2.toInt) sources ranges

/-- Identifiers shared by all sources are those in all ranges, and their rows are their distances from the first
identifiers. -/
theorem combines_iff (counted : Counted sources ranges) {rows : List Nat} {id : Long} :
    Combines sources rows id ↔ (∀ r ∈ ranges, r.1.toInt ≤ id.toInt ∧ id.toInt ≤ r.2.toInt) ∧
      rows = ranges.map fun r => (id.toInt - r.1.toInt).toNat := by
  unfold Combines
  induction counted generalizing rows with
  | nil => simp
  | @cons s r sources ranges hs _ ih =>
    rw [List.forall₂_cons_left_iff]
    have count := hs.count
    constructor
    · rintro ⟨row, rest, carries, h, rfl⟩
      obtain ⟨within, rfl⟩ := ih.1 h
      have here := hs.row_eq carries
      have below := carries.1
      refine ⟨fun q hq => ?_, ?_⟩
      · rcases List.mem_cons.1 hq with rfl | hq
        · omega
        · exact within q hq
      · rw [List.map_cons]
        congr 1
        omega
    · rintro ⟨within, rfl⟩
      obtain ⟨low, high⟩ := within r (by simp)
      refine ⟨_, _, ?_, ih.2 ⟨fun q hq => within q (by simp [hq]), rfl⟩, rfl⟩
      obtain ⟨id', carries, e⟩ := hs.carries (id.toInt - r.1.toInt).toNat (by omega)
      have same : id' = id := Int64.toInt_inj.1 (by omega)
      exact same ▸ carries

end Counted

namespace Selection

/-- A selection without entries aligns sources that have no identifier in common. -/
theorem aligns_empty {sources : List Source} (low : Int)
    (disjoint : ∀ rows id, ¬Combines sources rows id) : (empty sources.length).Aligns sources low where
  offsets := by simp [empty]
  rows := rfl
  combines k hk := absurd hk (by simp [empty, size])
  complete rows id h := absurd h (disjoint rows id)

/-- The rows of entry `k`, when each source is entered at its distance from `low`. -/
theorem rowsAt_offsets {sources : List Source} {ranges : List (Long × Long)} {low : Int} {n k : Nat}
    (length : sources.length = ranges.length) (first : ∀ r ∈ ranges, r.1.toInt ≤ low) (hk : k < n) :
    rowsAt ⟨ranges.map fun r => (low - r.1.toInt).toNat, List.range n⟩ sources k =
      ranges.map fun r => (low + k - r.1.toInt).toNat := by
  refine List.ext_getElem (by simp [rowsAt, length]) fun i hi hj => ?_
  simp only [List.length_map] at hj
  have below := first ranges[i] (List.getElem_mem hj)
  simp only [rowsAt, row, List.getElem_map, List.getElem_range, List.getD_eq_getElem?_getD, List.getElem?_map,
    List.getElem?_eq_getElem hj, List.getElem?_range hk, Option.map_some, Option.getD_some]
  omega

/-- The numbers that all ranges have in common are those from `low` to `high`. -/
structure Shares (ranges : List (Long × Long)) (low high : Int) : Prop where
  within : ∀ x : Int, (∀ r ∈ ranges, r.1.toInt ≤ x ∧ x ≤ r.2.toInt) ↔ low ≤ x ∧ x ≤ high
  first : ∀ r ∈ ranges, r.1.toInt ≤ low
  long : ∀ x : Int, low ≤ x → x ≤ high → ∃ id : Long, id.toInt = x

theorem sharing_eq {ranges : List (Long × Long)} (ne : ranges ≠ []) : ∃ low high, Shares ranges low high ∧
    sharing ranges = if high < low then empty ranges.length
      else ⟨ranges.map fun r => (low - r.1.toInt).toNat, List.range (high - low + 1).toNat⟩ := by
  obtain ⟨low, hlow⟩ := Option.isSome_iff_exists.1
    (List.isSome_max?_of_ne_nil (l := ranges.map fun r => r.1.toInt) (by simpa using ne))
  obtain ⟨high, hhigh⟩ := Option.isSome_iff_exists.1
    (List.isSome_min?_of_ne_nil (l := ranges.map fun r => r.2.toInt) (by simpa using ne))
  obtain ⟨lowMem, lowMax⟩ := List.max?_eq_some_iff.1 hlow
  obtain ⟨highMem, highMin⟩ := List.min?_eq_some_iff.1 hhigh
  have first : ∀ r ∈ ranges, r.1.toInt ≤ low := fun r hr => lowMax _ (List.mem_map_of_mem hr)
  have last : ∀ r ∈ ranges, high ≤ r.2.toInt := fun r hr => highMin _ (List.mem_map_of_mem hr)
  obtain ⟨a, ha, rfl⟩ := List.mem_map.1 lowMem
  obtain ⟨b, hb, rfl⟩ := List.mem_map.1 highMem
  refine ⟨a.1.toInt, b.2.toInt, ⟨fun x => ⟨fun within => ?_, fun ⟨above, below⟩ r hr => ?_⟩, first, ?_⟩, ?_⟩
  · exact ⟨(within a ha).1, (within b hb).2⟩
  · exact ⟨Int.le_trans (first r hr) above, Int.le_trans below (last r hr)⟩
  · intro x above below
    -- Both ends are identifiers themselves, so what lies between them is in the range of a long.
    have least := Long.least_le_toInt a.1
    have greatest := Long.toInt_le_greatest b.2
    have inside : Long.least ≤ x ∧ x ≤ Long.greatest := by omega
    obtain ⟨id, hid⟩ : ∃ id, Long.ofInt? x = some id := by
      unfold Long.ofInt?
      rw [if_pos inside]
      exact ⟨_, rfl⟩
    exact ⟨id, Long.ofInt?_eq_some hid⟩
  · simp only [sharing, hlow, hhigh, Option.getD_some]

/-- The entries for the shared range align the sources, from the greatest of the first identifiers on. -/
theorem aligns_sharing {sources : List Source} {ranges : List (Long × Long)} (counted : Counted sources ranges)
    (ne : ranges ≠ []) : ∃ low, (sharing ranges).Aligns sources low := by
  have length : sources.length = ranges.length := counted.length_eq
  obtain ⟨low, high, shares, eq⟩ := sharing_eq ne
  have combines : ∀ rows (id : Long), Combines sources rows id ↔ (low ≤ id.toInt ∧ id.toInt ≤ high) ∧
      rows = ranges.map fun r => (id.toInt - r.1.toInt).toNat := fun rows id => by
    rw [combines_iff counted, shares.within]
  refine ⟨low, ?_⟩
  rw [eq]
  split
  next disjoint =>
    rw [← length]
    refine aligns_empty low fun rows id h => ?_
    have := ((combines rows id).1 h).1
    omega
  next overlap =>
    refine ⟨by simp [length], by simp [size], fun k hk => ?_, fun rows id h => ?_⟩
    · simp only [size, List.length_range] at hk
      obtain ⟨id, value⟩ := shares.long (low + k) (by omega) (by omega)
      refine ⟨id, value, (combines _ id).2 ⟨by omega, ?_⟩⟩
      rw [rowsAt_offsets length shares.first hk, value]
    · obtain ⟨⟨above, below⟩, hrows⟩ := (combines rows id).1 h
      have hk : (id.toInt - low).toNat < (high - low + 1).toNat := by omega
      have value : id.toInt = low + (id.toInt - low).toNat := by omega
      refine ⟨(id.toInt - low).toNat, by simpa [size] using hk, value, ?_⟩
      rw [rowsAt_offsets length shares.first hk, ← value, hrows]

/-- Sources that can be aligned are. -/
theorem aligns_of_aligned {sources : List Source} {s : Selection} (ne : sources ≠ [])
    (h : aligned sources = .ok s) : ∃ low, s.Aligns sources low := by
  obtain ⟨found, hf, h⟩ := Outcome.bind_eq_ok.1 h
  have related := Outcome.mapM_eq_ok.1 hf
  rcases mapM_id_cases found with ⟨ranges, he, rfl⟩ | ⟨he, missing⟩
  · rw [he] at h
    cases h
    rw [List.forall₂_map_right_iff] at related
    refine aligns_sharing (related.imp fun s r hr => (Fragment.counts_of_idRange hr).1) fun empty => ne ?_
    rwa [empty, List.forall₂_nil_right_iff] at related
  · rw [he] at h
    cases h
    -- A source without rows carries no identifier that the others could share.
    refine ⟨0, aligns_empty 0 fun rows id combined => ?_⟩
    obtain ⟨i, hi, e⟩ := List.getElem_of_mem missing
    have hs : i < sources.length := related.length_eq ▸ hi
    have noRange := (List.forall₂_iff_get.1 related).2 i hs hi
    rw [List.get_eq_getElem, List.get_eq_getElem, e] at noRange
    have empty := Fragment.empty_of_idRange noRange
    have carries := (List.forall₂_iff_get.1 combined).2 i hs (combined.length_eq ▸ hs)
    rw [List.get_eq_getElem] at carries
    exact absurd carries.1 (by simp [empty])

end Selection

/-! ## Conditions -/

/-- A number other than zero; a NaN is one. -/
def Value.IsNonzero : Value → Prop
  | .double x => x.isZero = false
  | .long n => (Binary64.ofInt n.toInt).isZero = false
  | .str _ | .binary _ => False

theorem Value.isTruthy_eq_true {context : String} {v : Value} : v.isTruthy context = .ok true ↔ v.IsNonzero := by
  cases v <;> simp [isTruthy, toDouble, Except.map, IsNonzero]

/-- An expression is a number other than zero over combined rows. -/
def Expr.Holds (context : Context) (sources : List Source) (rows : List Nat) (e : Expr) : Prop :=
  ∃ v, e.Yields context sources rows v ∧ v.IsNonzero

namespace Selection

/-- Of an entry on which the condition is decided, it decides by its value over the rows of the entry. -/
theorem admits_iff {context : Context} {sources : List Source} {binder : RowBinder} {e : Expr} {s : Selection}
    {k : Nat} (bound : RowBinder.bind e sources context.args = .ok binder)
    (decided : ∃ b, admits context sources binder e s k = .ok b) :
    admits context sources binder e s k = .ok true ↔ e.Holds context sources (s.rowsAt sources k) := by
  obtain ⟨b, h⟩ := decided
  obtain ⟨t, ht, h'⟩ := Outcome.bind_eq_ok.1 h
  obtain ⟨v, hv, hb⟩ := Outcome.bind_eq_ok.1 h'
  have yields := fun w => RowBinder.yields_iff (v := w) bound ht
  rw [h]
  constructor
  · rintro ⟨⟩
    exact ⟨v, (yields v).2 hv, Value.isTruthy_eq_true.1 hb⟩
  · rintro ⟨w, hw, nonzero⟩
    rw [yields, hv] at hw
    cases hw
    rw [← hb, Value.isTruthy_eq_true.2 nonzero]

theorem zipIdx_range (n : Nat) : (List.range n).zipIdx = (List.range n).map fun k => (k, k) :=
  List.ext_getElem (by simp) fun i _ _ => by simp

/-- The entries among which a condition chooses are the rows of the only source, or the alignment of several. -/
theorem candidates_eq_ok {sources : List Source} {hasCondition : Bool} {c : Selection}
    (h : candidates sources hasCondition = .ok c) :
    (∃ only, sources = [only] ∧ c = full only.fragment.rowCount) ∨
      2 ≤ sources.length ∧ ∃ low, c.Aligns sources low := by
  match sources, h with
  | [only], h =>
    cases h
    exact .inl ⟨only, rfl, rfl⟩
  | _ :: _ :: _, h =>
    cases hasCondition with
    | true => exact .inr ⟨by simp, aligns_of_aligned (by simp) h⟩
    | false => cases h

theorem rows_candidates {sources : List Source} {hasCondition : Bool} {c : Selection}
    (h : candidates sources hasCondition = .ok c) : c.rows = List.range c.size := by
  rcases candidates_eq_ok h with ⟨only, -, rfl⟩ | ⟨-, low, aligns⟩
  · rw [full, size, List.length_range]
  · exact aligns.rows

/-- A condition that is decided on every candidate keeps those on which it is decided in favour. -/
theorem filter_eq_ok_iff {context : Context} {sources : List Source} {e : Expr} {s : Selection} :
    filter context sources (some e) = .ok s ↔ e.isAggregating context.registry = false ∧
      ∃ c binder choice, candidates sources true = .ok c ∧ RowBinder.bind e sources context.args = .ok binder ∧
        (∀ k < c.size, admits context sources binder e c k = .ok (choice k)) ∧
        s = ⟨c.offsets, (List.range c.size).filter choice⟩ := by
  have entries {c : Selection} (hc : candidates sources true = .ok c) :
      c.rows.zipIdx = (List.range c.size).map fun k => (k, k) := rows_candidates hc ▸ zipIdx_range c.size
  constructor
  · intro h
    simp only [filter, Option.any_some] at h
    split at h
    · cases h
    next plain =>
      obtain ⟨c, hc, h⟩ := Outcome.bind_eq_ok.1 h
      obtain ⟨binder, bound, h⟩ := Outcome.bind_eq_ok.1 h
      obtain ⟨kept, chosen, h⟩ := Outcome.bind_eq_ok.1 h
      cases h
      obtain ⟨decided, rfl⟩ := Outcome.filterM_eq_ok chosen
      rw [entries hc] at decided ⊢
      refine ⟨(Bool.not_eq_true _).mp plain, c, binder, fun k => Outcome.favours (admits context sources binder e c k),
        hc, bound, fun k hk => ?_, ?_⟩
      · exact Outcome.eq_ok_favours (decided (k, k) (List.mem_map_of_mem (List.mem_range.2 hk)))
      · simp only [List.filter_map, List.map_map, Function.comp_def, List.map_id']
  · rintro ⟨plain, c, binder, choice, hc, bound, decided, rfl⟩
    simp only [filter, Option.any_some, plain, Bool.false_eq_true, if_false]
    have decidedEach : ∀ entry ∈ c.rows.zipIdx, admits context sources binder e c entry.2 = .ok (choice entry.2) := by
      rintro ⟨row, k⟩ mem
      rw [entries hc] at mem
      obtain ⟨k', hk, same⟩ := List.mem_map.1 mem
      cases same
      exact decided _ (List.mem_range.1 hk)
    refine Outcome.bind_eq_ok.2 ⟨c, hc, Outcome.bind_eq_ok.2 ⟨binder, bound, ?_⟩⟩
    refine Outcome.bind_eq_ok.2 ⟨_, Outcome.filterM_of_decided decidedEach, ?_⟩
    rw [entries hc]
    simp only [List.filter_map, List.map_map, Function.comp_def, List.map_id']
    rfl

/-- A filter of several sources keeps, of an alignment, the entries over whose rows the condition holds. -/
theorem filter_eq_ok {context : Context} {sources : List Source} {e : Expr} {s : Selection}
    (several : 2 ≤ sources.length) (h : filter context sources (some e) = .ok s) :
    ∃ (c : Selection) (low : Int), c.Aligns sources low ∧ s.offsets = c.offsets ∧
      s.rows.Sublist (List.range c.size) ∧
      ∀ k, k ∈ s.rows ↔ k < c.size ∧ e.Holds context sources (c.rowsAt sources k) := by
  obtain ⟨-, c, binder, choice, hc, bound, decided, rfl⟩ := filter_eq_ok_iff.1 h
  obtain ⟨low, aligns⟩ : ∃ low, c.Aligns sources low := by
    rcases candidates_eq_ok hc with ⟨only, rfl, -⟩ | ⟨-, aligned⟩
    · cases Nat.not_succ_le_self 1 several
    · exact aligned
  refine ⟨c, low, aligns, rfl, List.filter_sublist, fun k => ?_⟩
  rw [List.mem_filter, List.mem_range]
  refine and_congr_right fun hk => ?_
  rw [← admits_iff bound ⟨_, decided k hk⟩, decided k hk, Except.ok.injEq]

/-- The rows of a selection whose entries are taken from an alignment. -/
theorem rowsAt_of_aligned {sources : List Source} {c s : Selection} {low : Int} (aligns : c.Aligns sources low)
    (offsets : s.offsets = c.offsets) {j : Nat} (hj : j < s.rows.length) (hk : s.rows[j] < c.size) :
    s.rowsAt sources j = c.rowsAt sources s.rows[j] := by
  simp only [rowsAt, row, offsets, aligns.rows, List.getD_eq_getElem?_getD, List.getElem?_eq_getElem hj,
    List.getElem?_range hk, Option.getD_some]

end Selection

/-! ## The inner join -/

theorem exists_forall₂ {α β : Type} {R : α → β → Prop} (xs : List α) (h : ∀ x ∈ xs, ∃ y, R x y) :
    ∃ ys, List.Forall₂ R xs ys := by
  induction xs with
  | nil => exact ⟨[], .nil⟩
  | cons x rest ih =>
    obtain ⟨y, hy⟩ := h x (by simp)
    obtain ⟨ys, hys⟩ := ih fun z hz => h z (by simp [hz])
    exact ⟨y :: ys, .cons hy hys⟩

namespace Selection

/-- A selection is the inner join of sources under a condition. Its entries stand for `ids`, each for one row of
every source, and these are the identifiers of the combinations of rows that satisfy the condition. -/
structure IsInnerJoin (s : Selection) (context : Context) (sources : List Source) (e : Expr)
    (ids : List Long) : Prop where
  offsets : s.offsets.length = sources.length
  size : ids.length = s.size
  carries : ∀ k (hk : k < ids.length) i (hi : i < sources.length), sources[i].fragment.Carries (s.row i k) ids[k]
  ascending : ids.Pairwise fun a b => a.toInt < b.toInt
  mem_iff : ∀ id, id ∈ ids ↔ ∃ rows, Combines sources rows id ∧ e.Holds context sources rows
  unique : ∀ id rows rows', Combines sources rows id → Combines sources rows' id → rows = rows'

/-- A filter of several sources that succeeds is their inner join on the identifier columns. -/
theorem filter_isInnerJoin {context : Context} {sources : List Source} {e : Expr} {s : Selection}
    (several : 2 ≤ sources.length) (h : filter context sources (some e) = .ok s) :
    ∃ ids, s.IsInnerJoin context sources e ids := by
  obtain ⟨c, low, aligns, offsets, sub, kept⟩ := filter_eq_ok several h
  obtain ⟨ids, related⟩ := exists_forall₂ s.rows fun k hk => aligns.combines k ((kept k).1 hk).1
  have length : ids.length = s.rows.length := related.length_eq.symm
  have entry : ∀ j (hj : j < s.rows.length) (hids : j < ids.length), ids[j].toInt = low + s.rows[j] ∧
      Combines sources (s.rowsAt sources j) ids[j] := fun j hj hids => by
    rw [rowsAt_of_aligned aligns offsets hj ((kept _).1 (List.getElem_mem hj)).1]
    exact (List.forall₂_iff_get.1 related).2 j hj hids
  refine ⟨ids, offsets ▸ aligns.offsets, length, fun k hk i hi => ?_, ?_, fun id => ⟨fun mem => ?_, ?_⟩, ?_⟩
  · obtain ⟨-, combined⟩ := entry k (length ▸ hk) hk
    have carries := (List.forall₂_iff_get.1 combined).2 i hi (by simpa [rowsAt] using hi)
    simpa [rowsAt] using carries
  · refine List.pairwise_iff_getElem.2 fun i j hi hj hij => ?_
    have ascending := List.pairwise_iff_getElem.1 (List.pairwise_lt_range.sublist sub) i j (length ▸ hi)
      (length ▸ hj) hij
    rw [(entry i (length ▸ hi) hi).1, (entry j (length ▸ hj) hj).1]
    omega
  · obtain ⟨j, hj, rfl⟩ := List.getElem_of_mem mem
    have inside := (kept _).1 (List.getElem_mem (length ▸ hj))
    have rows := rowsAt_of_aligned aligns offsets (length ▸ hj) inside.1
    exact ⟨_, (entry j (length ▸ hj) hj).2, rows ▸ inside.2⟩
  -- A combination has its entry in the alignment, and the condition keeps the entry.
  · rintro ⟨rows, combined, holds⟩
    obtain ⟨k, hk, value, rfl⟩ := aligns.complete rows id combined
    obtain ⟨j, hj, rfl⟩ := List.getElem_of_mem ((kept k).2 ⟨hk, holds⟩)
    have hids : j < ids.length := length ▸ hj
    have same : ids[j] = id := Int64.toInt_inj.1 (by rw [(entry j hj hids).1, value])
    exact same ▸ List.getElem_mem _
  · intro id rows rows' h h'
    obtain ⟨k, -, value, rfl⟩ := aligns.complete rows id h
    obtain ⟨k', -, value', rfl⟩ := aligns.complete rows' id h'
    rw [show k = k' by omega]

/-- A source whose only column counts up from `first`. -/
def counting (name : String) (first : Long) (rows : Nat) : Source :=
  ⟨⟨name, ⟨[⟨"id", .long, false⟩]⟩, (List.range rows).map fun i => ⟨[(first + Int64.ofNat i).toBytes]⟩, false⟩,
    none, none⟩

/-- Identifiers 1 to 3 and 2 to 4 share 2 and 3, of which a condition keeps the second. -/
theorem filter_isInnerJoin_overlap :
    2 ≤ [counting "a" 1 3, counting "b" 2 3].length ∧
    filter ⟨.builtin, [.long 2], 0⟩ [counting "a" 1 3, counting "b" 2 3]
      (some (.binary (.variable "b.id") .gt (.variable "?1"))) = .ok ⟨[1, 0], [1]⟩ ∧
    ∃ ids, IsInnerJoin ⟨[1, 0], [1]⟩ ⟨.builtin, [.long 2], 0⟩ [counting "a" 1 3, counting "b" 2 3]
      (.binary (.variable "b.id") .gt (.variable "?1")) ids :=
  ⟨by decide, rfl, filter_isInnerJoin (by decide) rfl⟩

end Selection

end FragmentEngine
