import FragmentEngine.Proofs.Fragment.Reordered
import FragmentEngine.Proofs.Select.StableOrder
/-!
# Ordered fragments

A fragment can be ordered by itself, or by way of the selection of all its rows. Both read the same keys and sort them
the same way, so they fail alike and arrange the rows alike. They differ on one point: that a column cannot be sorted by
is noticed for a selection even without rows, and for a fragment only in a row.
-/

namespace FragmentEngine

variable {f : Fragment} {field : String} {alias? db? : Option String} {column : Nat}

namespace Fragment

/-- The keys of the rows in a column, each with its row. -/
def keyed (f : Fragment) (column : Nat) : Except Error (List (Int × Nat)) :=
  (List.range f.rowCount).mapM fun row => do return (← f.sortKey row column, row)

/-- The rows in the order of their keys. -/
def arrangement (keyed : List (Int × Nat)) : List Nat := (sortByKey keyed).map Prod.snd

/-- A column that cannot be sorted by has the name, but there is no row to show it. -/
def BlindTo (f : Fragment) (field : String) : Prop :=
  f.rowCount = 0 ∧ ∃ column c, f.column field = .ok column ∧ f.schema.fields[column]? = some c ∧ c.type.isNumeric = false

/-- The rows are arranged as a permutation of them. -/
theorem perm_arrangement {keys : List (Int × Nat)} (h : f.keyed column = .ok keys) :
    (arrangement keys).Perm (List.range f.rowCount) := by
  have rows : keys.map Prod.snd = List.range f.rowCount := by
    rw [eq_comm, ← List.forall₂_eq_eq_eq, List.forall₂_map_right_iff]
    refine (Outcome.mapM_eq_ok.1 h).imp fun row key made => ?_
    obtain ⟨k, -, made⟩ := Outcome.bind_eq_ok.1 made
    cases made
    rfl
  rw [← rows, arrangement, Selection.sortByKey_eq]
  exact (List.perm_insertionSort _ keys).map Prod.snd

theorem keyed_eq_nil {keys : List (Int × Nat)} (h : f.keyed column = .ok keys) : keys = [] ↔ f.rowCount = 0 := by
  have length := (perm_arrangement h).length_eq
  rw [arrangement, List.length_map, Selection.sortByKey_eq, (List.perm_insertionSort _ keys).length_eq,
    List.length_range] at length
  rw [← length, List.length_eq_zero_iff]

/-- A fragment is ordered as soon as it has the column and all keys can be read. -/
theorem orderBy_of_keyed {keys : List (Int × Nat)} (found : f.column field = .ok column)
    (h : f.keyed column = .ok keys) :
    ∃ records, f.orderBy field = .ok { f with records := records } ∧
      List.Forall₂ (fun row r => f.records[row]? = some r) (arrangement keys) records := by
  obtain ⟨records, reordered, placed⟩ := reorder_of_perm (perm_arrangement h)
  exact ⟨records, Outcome.bind_eq_ok.2 ⟨column, found, Outcome.bind_eq_ok.2 ⟨keys, h, reordered⟩⟩, placed⟩

end Fragment

/-! ## All rows selected -/

/-- A name without a dot is that of a column of the only source. -/
theorem resolveField_plain (plain : '.' ∉ field.toList) :
    resolveField field [⟨f, alias?, db?⟩] = f.column field >>= fun column => .ok (0, column) := by
  unfold resolveField
  rw [Text.splitLast_eq_none plain]
  rfl

namespace Selection

theorem row_full {k n : Nat} (lt : k < n) : (full n).row 0 k = k := by simp [row, full, lt]

/-- All rows are ordered by the same keys, and the column is looked at even if there are none. -/
theorem orderBy_full (plain : '.' ∉ field.toList) :
    (full f.rowCount).orderBy field [⟨f, alias?, db?⟩] =
      f.column field >>= fun column => f.keyed column >>= fun keys =>
        if keys.isEmpty ∧ (f.schema.fields[column]?).any (!·.type.isNumeric) then .error (.exec (.orderNotNumeric field))
        else .ok ⟨[0], Fragment.arrangement keys⟩ := by
  have keyed (column : Nat) : ((full f.rowCount).rows.zipIdx.mapM fun entry => do
      return (← f.sortKey ((full f.rowCount).row 0 entry.2) column, entry.1)) = f.keyed column := by
    rw [show (full f.rowCount).rows.zipIdx = _ from zipIdx_range f.rowCount, List.mapM_map]
    refine Outcome.mapM_congr fun row mem => ?_
    dsimp only [Function.comp_apply]
    rw [row_full (List.mem_range.1 mem)]
  unfold orderBy
  rw [resolveField_plain plain, bind_assoc]
  refine congrArg (f.column field >>= ·) (funext fun column => ?_)
  rw [Outcome.ok_bind, ← keyed]
  refine congrArg (Bind.bind _) (funext fun keys => ?_)
  split <;> rfl

end Selection

/-! ## Two ways to order -/

namespace Fragment

variable {keys : List (Int × Nat)}

/-- Either way fails for the same cause, unless the column is there and all keys can be read. -/
theorem unread_or_keyed (f : Fragment) (alias? db? : Option String) (plain : '.' ∉ field.toList) :
    (∃ error, f.orderBy field = .error error ∧
      (Selection.full f.rowCount).orderBy field [⟨f, alias?, db?⟩] = .error error) ∨
    ∃ column keys, f.column field = .ok column ∧ f.keyed column = .ok keys := by
  rw [Selection.orderBy_full plain]
  cases found : f.column field with
  | error error =>
    refine .inl ⟨error, ?_, rfl⟩
    unfold orderBy
    rw [found]
    rfl
  | ok column =>
    cases read : f.keyed column with
    | error error =>
      refine .inl ⟨error, ?_, ?_⟩
      · exact Outcome.bind_eq_error.2 (.inr ⟨column, found, Outcome.bind_eq_error.2 (.inl read)⟩)
      · exact Outcome.bind_eq_error.2 (.inr ⟨column, rfl, Outcome.bind_eq_error.2 (.inl read)⟩)
    | ok keys => exact .inr ⟨column, keys, rfl, read⟩

theorem blindTo_iff (found : f.column field = .ok column) (read : f.keyed column = .ok keys) :
    f.BlindTo field ↔ keys.isEmpty ∧ (f.schema.fields[column]?).any (!·.type.isNumeric) := by
  rw [List.isEmpty_iff, keyed_eq_nil read]
  refine and_congr_right fun _ => ⟨?_, fun unsortable => ?_⟩
  · rintro ⟨column', c, found', known, unsortable⟩
    cases found.symm.trans found'
    rw [known, Option.any_some, unsortable]
    rfl
  · cases known : f.schema.fields[column]? with
    | none =>
      rw [known] at unsortable
      cases unsortable
    | some c =>
      rw [known, Option.any_some, Bool.not_eq_true'] at unsortable
      exact ⟨column, c, found, known, unsortable⟩

theorem orderBy_full_blind (plain : '.' ∉ field.toList) (blind : f.BlindTo field)
    (found : f.column field = .ok column) (read : f.keyed column = .ok keys) :
    (Selection.full f.rowCount).orderBy field [⟨f, alias?, db?⟩] = .error (.exec (.orderNotNumeric field)) := by
  rw [Selection.orderBy_full plain, found, Outcome.ok_bind, read, Outcome.ok_bind,
    if_pos ((blindTo_iff found read).1 blind)]

theorem orderBy_full_seeing (plain : '.' ∉ field.toList) (seeing : ¬f.BlindTo field)
    (found : f.column field = .ok column) (read : f.keyed column = .ok keys) :
    (Selection.full f.rowCount).orderBy field [⟨f, alias?, db?⟩] = .ok ⟨[0], arrangement keys⟩ := by
  rw [Selection.orderBy_full plain, found, Outcome.ok_bind, read, Outcome.ok_bind,
    if_neg (mt (blindTo_iff found read).2 seeing)]

/-- Without rows there is nothing to order. -/
theorem orderBy_blind (blind : f.BlindTo field) : f.orderBy field = .ok f := by
  obtain ⟨none, column, c, found, -, -⟩ := blind
  have read : f.keyed column = .ok [] := by
    rw [keyed, none]
    rfl
  obtain ⟨records, ordered, placed⟩ := orderBy_of_keyed found read
  cases placed
  rw [ordered, ← List.eq_nil_of_length_eq_zero none]

/-- To order a fragment and to order the selection of all its rows is the same, except for a column that cannot be
sorted by in a fragment without rows: ordering the fragment succeeds there, ordering the selection is refused. Anywhere
else the one fails exactly if the other does, and for the same cause. Where both succeed the rows of the fragment, and
nothing else of it, are rearranged as the selection lists them. -/
theorem orderBy_agrees (f : Fragment) (alias? db? : Option String) (plain : '.' ∉ field.toList) :
    (f.BlindTo field → f.orderBy field = .ok f ∧
      (Selection.full f.rowCount).orderBy field [⟨f, alias?, db?⟩] = .error (.exec (.orderNotNumeric field))) ∧
    (¬f.BlindTo field → ∀ error, f.orderBy field = .error error ↔
      (Selection.full f.rowCount).orderBy field [⟨f, alias?, db?⟩] = .error error) ∧
    ∀ g s, f.orderBy field = .ok g → (Selection.full f.rowCount).orderBy field [⟨f, alias?, db?⟩] = .ok s →
      s.offsets = [0] ∧ s.rows.Perm (List.range f.rowCount) ∧ g = { f with records := g.records } ∧
        List.Forall₂ (fun row r => f.records[row]? = some r) s.rows g.records := by
  rcases unread_or_keyed f alias? db? plain with ⟨cause, byItself, selected⟩ | ⟨column, keys, found, read⟩
  · rw [selected, byItself]
    refine ⟨fun blind => ?_, fun _ error => by rw [Except.error.injEq, Except.error.injEq], nofun⟩
    cases byItself.symm.trans (orderBy_blind blind)
  obtain ⟨records, ordered, placed⟩ := orderBy_of_keyed found read
  refine ⟨fun blind => ⟨orderBy_blind blind, orderBy_full_blind plain blind found read⟩, fun seeing error => ?_, ?_⟩
  · rw [ordered, orderBy_full_seeing plain seeing found read]
    exact ⟨nofun, nofun⟩
  · intro g s byItself selected
    cases ordered.symm.trans byItself
    by_cases blind : f.BlindTo field
    · cases selected.symm.trans (orderBy_full_blind plain blind found read)
    · cases selected.symm.trans (orderBy_full_seeing plain blind found read)
      exact ⟨rfl, perm_arrangement read, rfl, placed⟩

/-- Zero comes between the two ones and the other numbers, and the ones keep their order. A column that is not there is
refused either way. -/
theorem orderBy_agrees_ones :
    let f := (Selection.ofDoubles [.ofInt 1, .ofInt 2, Binary64.neg .zero, .ofInt 1]).fragment
    ¬f.BlindTo "v" ∧ ¬f.BlindTo "w" ∧
      (∃ g s, f.orderBy "v" = .ok g ∧ (Selection.full 4).orderBy "v" [⟨f, some "a", none⟩] = .ok s ∧
        s.rows = [2, 0, 3, 1] ∧ List.Forall₂ (fun row r => f.records[row]? = some r) s.rows g.records) ∧
      ∃ error, f.orderBy "w" = .error error ∧ (Selection.full 4).orderBy "w" [⟨f, some "a", none⟩] = .error error := by
  intro f
  have seeing (field : String) : ¬f.BlindTo field := fun blind => absurd blind.1 (by decide)
  have agrees (field : String) (plain : '.' ∉ field.toList) := orderBy_agrees f (some "a") none plain
  obtain ⟨g, ordered⟩ : ∃ g, f.orderBy "v" = .ok g := ⟨_, rfl⟩
  have selected : (Selection.full 4).orderBy "v" [⟨f, some "a", none⟩] = .ok ⟨[0], [2, 0, 3, 1]⟩ := by decide +kernel
  obtain ⟨-, -, -, placed⟩ := (agrees "v" (by decide)).2.2 g _ ordered selected
  have refused : f.orderBy "w" = .error (.exec (.fieldNotFound "w" "f")) := by decide +kernel
  refine ⟨seeing "v", seeing "w", ⟨g, _, ordered, selected, rfl, placed⟩, _, refused, ?_⟩
  exact ((agrees "w" (by decide)).2.1 (seeing "w") _).1 refused

/-- A column of texts without rows is ordered by itself, and not as a selection. -/
theorem orderBy_disagrees :
    let f := Fragment.empty "f" ⟨[⟨"s", .string, false⟩]⟩
    f.orderBy "s" = .ok f ∧
      (Selection.full f.rowCount).orderBy "s" [⟨f, none, none⟩] = .error (.exec (.orderNotNumeric "s")) := by
  decide +kernel

end Fragment

end FragmentEngine
