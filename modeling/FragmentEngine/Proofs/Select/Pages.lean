import FragmentEngine.Proofs.Select.Projected
import FragmentEngine.Proofs.Select.SingleEntry
/-!
# Pages

A window chooses among the entries of a selection, and without groups every column is made entry by entry. So a window
cuts the same rows out of the output as out of the selection, and the pages of a result are its records in order.
-/

namespace FragmentEngine

/-! ## Windows -/

namespace Window

variable {α β : Type} {w : Window} {xs : List α} {k : Nat}

/-- The items inside the window. -/
def cut (w : Window) (xs : List α) : List α :=
  if w.limit = 0 then xs.drop w.offset else (xs.drop w.offset).take w.limit

theorem apply_eq (w : Window) (s : Selection) : w.apply s = ⟨s.offsets, w.cut s.rows⟩ := rfl

theorem cut_eq_extract (w : Window) (xs : List α) :
    w.cut xs = xs.extract w.offset (if w.limit = 0 then xs.length else min (w.offset + w.limit) xs.length) := by
  rw [List.extract_eq_take_drop, cut]
  split
  · rw [List.take_of_length_le (by rw [List.length_drop])]
  · refine List.take_eq_take_iff.2 ?_
    rw [List.length_drop]
    omega

theorem cut_map (w : Window) (f : α → β) (xs : List α) : w.cut (xs.map f) = (w.cut xs).map f := by
  unfold cut
  split
  · rw [List.map_drop]
  · rw [List.map_take, List.map_drop]

theorem forall₂_cut {R : α → β → Prop} {ys : List β} (w : Window) (h : List.Forall₂ R xs ys) :
    List.Forall₂ R (w.cut xs) (w.cut ys) := by
  unfold cut
  split
  · exact List.forall₂_drop _ h
  · exact List.forall₂_take _ (List.forall₂_drop _ h)

theorem cut_subset (w : Window) (xs : List α) : w.cut xs ⊆ xs := by
  unfold cut
  split
  · exact List.drop_subset _ _
  · exact fun x mem => List.mem_of_mem_drop (List.mem_of_mem_take mem)

/-- A place inside the window. -/
def Inside (w : Window) (k : Nat) : Prop := w.limit = 0 ∨ k < w.limit

theorem inside_of_lt (h : k < (w.cut xs).length) : w.Inside k := by
  unfold cut at h
  split at h
  · exact .inl ‹_›
  · rw [List.length_take] at h
    exact .inr (lt_of_lt_of_le h (Nat.min_le_left _ _))

theorem getElem?_cut (h : w.Inside k) (xs : List α) : (w.cut xs)[k]? = xs[w.offset + k]? := by
  unfold cut
  split
  · rw [List.getElem?_drop]
  · rw [List.getElem?_take_of_lt (h.resolve_left ‹_›), List.getElem?_drop]

/-- Windows of one size, laid end to end, cut out what they cover. -/
theorem flatMap_cut {size : Nat} (positive : 0 < size) (xs : List α) (m : Nat) :
    ((List.range m).flatMap fun i => cut ⟨i * size, size⟩ xs) = xs.take (m * size) := by
  induction m with
  | zero => rw [Nat.zero_mul]; rfl
  | succ m ih =>
    rw [List.range_succ, List.flatMap_append, ih, List.flatMap_singleton, cut, if_neg (Nat.ne_of_gt positive),
      Nat.succ_mul, List.take_add]

/-! ### Entries -/

variable {s : Selection}

theorem inside_of_lt_size (h : k < (w.apply s).size) : w.Inside k := inside_of_lt h

/-- An entry inside the window stands for the rows that it stands for in the whole selection. -/
theorem row_apply (h : w.Inside k) (source : Nat) : (w.apply s).row source k = s.row source (w.offset + k) := by
  simp only [apply_eq, Selection.row, List.getD_eq_getElem?_getD, getElem?_cut h]

/-- The entries that a window leaves, by their places in the whole selection. -/
theorem map_range_apply (w : Window) (s : Selection) :
    (List.range (w.apply s).size).map (w.offset + ·) = w.cut (List.range s.size) := by
  have sizes : (w.cut (List.range s.size)).length = (w.apply s).size :=
    (forall₂_cut w (List.forall₂_iff_get.2 ⟨by rw [List.length_range]; rfl, fun _ _ _ => trivial⟩ :
      List.Forall₂ (fun _ _ => True) (List.range s.size) s.rows)).length_eq
  refine List.ext_getElem (by rw [List.length_map, List.length_range, sizes]) fun k lt lt' => ?_
  have here := getElem?_cut (inside_of_lt lt') (List.range s.size)
  rw [List.getElem?_eq_getElem lt'] at here
  obtain ⟨_, here⟩ := List.getElem?_eq_some_iff.1 here.symm
  rw [List.getElem_map, List.getElem_range, ← here, List.getElem_range]

end Window

/-! ## Columns -/

section

variable {context : Context} {sources : List Source} {selection selection' : Selection} {name : String}
  {entries : List Nat} {e : Expr} {column : Column} {data c c' : ColumnData} {w : Window}

/-- A column depends on the rows that the entries stand for only. -/
theorem Column.shownAt_map (place : Nat → Nat)
    (same : ∀ k ∈ entries, ∀ source, selection'.row source k = selection.row source (place k)) (column : Column) :
    column.shownAt context sources selection' name entries =
      column.shownAt context sources selection name (entries.map place) := by
  cases column with
  | literal v | argument v =>
    simp only [shownAt, List.length_map]
  | field source i =>
    have cells (f : Fragment) : (entries.mapM fun k => Projection.copiedCell f (selection'.row source k) i) =
        (entries.map place).mapM fun k => Projection.copiedCell f (selection.row source k) i := by
      rw [List.mapM_map]
      refine Outcome.mapM_congr fun k mem => ?_
      rw [same k mem, Function.comp_apply]
    simp only [shownAt, cells]
  | expr e =>
    have values : entries.mapM (e.valueAt context sources selection') =
        (entries.map place).mapM (e.valueAt context sources selection) := by
      rw [List.mapM_map]
      exact Outcome.mapM_congr fun k mem => Expr.valueAt_congr (same k mem)
    simp only [shownAt, values]

/-- A column that is cut down to a window: it keeps its name and its flag, and its type if a cell is left. -/
structure ColumnData.IsCut (w : Window) (c c' : ColumnData) : Prop where
  cells : c'.cells = w.cut c.cells
  name : c'.field.name = c.field.name
  identifier : c'.field.identifier = c.field.identifier
  type : c'.cells ≠ [] → c'.field.type = c.field.type

theorem ColumnData.IsCut.field (h : c.IsCut w c') (filled : c'.cells ≠ []) : c'.field = c.field := by
  calc c'.field = ⟨c'.field.name, c'.field.type, c'.field.identifier⟩ := rfl
    _ = c.field := by rw [h.name, h.type filled, h.identifier]

/-- A column of some of the entries is cut out of the column of all. -/
theorem Column.exists_shownAt_cut (builtin : context.registry = .builtin) (shown : column.Shows context sources e)
    (w : Window) (h : column.shownAt context sources selection name entries = .ok data) :
    ∃ data', column.shownAt context sources selection name (w.cut entries) = .ok data' ∧ data.IsCut w data' := by
  have constant {v : Value} (h : Projection.constantColumn name v entries.length = .ok data) :
      ∃ data', Projection.constantColumn name v (w.cut entries).length = .ok data' ∧ data.IsCut w data' := by
    obtain ⟨cell, encoded, h⟩ := Outcome.bind_eq_ok.1 h
    cases h
    refine ⟨_, Outcome.bind_eq_ok.2 ⟨cell, encoded, rfl⟩, ?_, rfl, rfl, fun _ => rfl⟩
    simp only [← List.map_const', Window.cut_map]
  cases shown with
  | literal v => exact constant h
  | argument _ => exact constant h
  | field _ =>
    obtain ⟨input, f, cells, known, found, copied, rfl⟩ := shownAt_field_eq_ok.1 h
    have copied := Outcome.mapM_eq_ok.2 (w.forall₂_cut (Outcome.mapM_eq_ok.1 copied))
    exact ⟨_, shownAt_field_eq_ok.2 ⟨input, f, _, known, found, copied, rfl⟩, rfl, rfl, rfl, fun _ => rfl⟩
  | expr known =>
    obtain ⟨binder, values, cells, bound, evaluated, encoded, rfl⟩ := shownAt_expr_eq_ok.1 h
    have inside := Outcome.mapM_eq_ok.2 (w.forall₂_cut (Outcome.mapM_eq_ok.1 evaluated))
    -- the first value left has the type of the first of all
    have typed (v : Value) (mem : v ∈ w.cut values) : (((w.cut values).head?.map Value.fieldType).getD .real) =
        ((values.head?.map Value.fieldType).getD .real) :=
      (Expr.head_fieldType builtin known inside mem).trans
        (Expr.head_fieldType builtin known evaluated (w.cut_subset values mem)).symm
    have encoded : (w.cut values).mapM (Cell.encode (((w.cut values).head?.map Value.fieldType).getD .real)) =
        .ok (w.cut cells) := by
      rw [← Outcome.mapM_eq_ok.2 (w.forall₂_cut (Outcome.mapM_eq_ok.1 encoded))]
      exact Outcome.mapM_congr fun v mem => by rw [typed v mem]
    refine ⟨_, shownAt_expr_eq_ok.2 ⟨binder, _, _, bound, inside, encoded, rfl⟩, rfl, rfl, rfl, fun left => ?_⟩
    obtain ⟨v, mem⟩ : ∃ v, v ∈ w.cut values := by
      refine List.exists_mem_of_ne_nil _ fun none => left (List.eq_nil_of_length_eq_zero ?_)
      rw [← (Outcome.mapM_eq_ok.1 encoded).length_eq, none, List.length_nil]
    exact typed v mem

namespace Projection

variable {p : Projection} {text : String} {done columns : List ColumnData} {f : Fragment} {keyed : Bool}

/-- Without groups and numbering a column shows the entries one by one. -/
theorem column_ungrouped (parsed : Expr.parse text = .ok e) (shown : Column.ofExpr context sources e = .ok column)
    (unnumbered : p.sequentialId = none) :
    p.column context sources selection none selection.size text =
      column.shownAt context sources selection (Text.trimmed text) (List.range selection.size) :=
  column_eq_of_exprColumn parsed shown unnumbered (fun name => exprColumn_ungrouped _ _ _ _ name e)
    fun _ => List.length_range

/-- A column of a window is cut out of the column of the whole selection. -/
theorem exists_column_apply (builtin : context.registry = .builtin) (unnumbered : p.sequentialId = none) (w : Window)
    (h : p.column context sources selection none selection.size text = .ok data) :
    ∃ data', p.column context sources (w.apply selection) none (w.apply selection).size text = .ok data' ∧
      data.IsCut w data' ∧ data'.cells.length = (w.apply selection).size := by
  obtain ⟨e, parsed, made⟩ := Outcome.bind_eq_ok.1 h
  obtain ⟨column, shown, -⟩ := Outcome.bind_eq_ok.1 made
  rw [column_ungrouped parsed shown unnumbered] at h
  obtain ⟨data', made, isCut⟩ := Column.exists_shownAt_cut builtin (Column.shows_of_ofExpr shown) w h
  have same : ∀ k ∈ List.range (w.apply selection).size, ∀ source,
      (w.apply selection).row source k = selection.row source (w.offset + k) := fun k mem =>
    Window.row_apply (Window.inside_of_lt_size (List.mem_range.1 mem))
  rw [← Window.map_range_apply, ← Column.shownAt_map _ same] at made
  rw [column_ungrouped parsed shown unnumbered]
  exact ⟨data', made, isCut, (Column.length_of_shownAt made).trans List.length_range⟩

/-- Columns cut down to a window, with the given number of cells. -/
def AreCut (w : Window) (rows : Nat) : List ColumnData → List ColumnData → Prop :=
  List.Forall₂ fun c c' => c.IsCut w c' ∧ c'.cells.length = rows

theorem AreCut.map_eq {rows : Nat} {α : Type} {g g' : ColumnData → α} (areCut : AreCut w rows columns done)
    (same : ∀ c c', c.IsCut w c' → c'.cells.length = rows → g' c' = g c) : done.map g' = columns.map g := by
  rw [← List.forall₂_eq_eq_eq, List.forall₂_map_left_iff, List.forall₂_map_right_iff]
  exact areCut.flip.imp fun _ _ both => same _ _ both.1 both.2

/-- With a window each column is added as it is without one. -/
theorem exists_addColumn_apply (builtin : context.registry = .builtin) (unnumbered : p.sequentialId = none)
    {done' next : List ColumnData} {alias? : Option String} (areCut : AreCut w (w.apply selection).size done done')
    (h : p.addColumn context sources selection none selection.size done text alias? = .ok next) :
    ∃ next', p.addColumn context sources (w.apply selection) none (w.apply selection).size done' text alias? =
      .ok next' ∧ AreCut w (w.apply selection).size next next' := by
  obtain ⟨data, made, h⟩ := Outcome.bind_eq_ok.1 h
  obtain ⟨data', made', isCut, length⟩ := exists_column_apply builtin unnumbered w made
  have names : done'.map (·.field.name) = done.map (·.field.name) := areCut.map_eq fun _ _ isCut _ => isCut.name
  have flags : done'.any (·.field.identifier) = done.any (·.field.identifier) := by
    have flags : done'.map (·.field.identifier) = done.map (·.field.identifier) :=
      areCut.map_eq fun _ _ isCut _ => isCut.identifier
    simpa only [List.any_map, Function.id_comp] using congrArg (List.any · id) flags
  dsimp only at h
  split at h
  · cases h
  split at h
  · cases h
  next fresh =>
    cases h
    unfold addColumn
    rw [made', Outcome.ok_bind]
    dsimp only
    rw [if_neg (not_not.2 length), isCut.name, names, if_neg fresh, isCut.identifier, flags]
    exact ⟨_, rfl, List.rel_append areCut (.cons ⟨⟨isCut.cells, rfl, rfl, isCut.type⟩, length⟩ .nil)⟩

/-- A page of a fragment: the records in a window, under the same name and, if there are any, the same columns. -/
structure IsPage (w : Window) (f page : Fragment) : Prop where
  records : page.records = w.cut f.records
  name : page.name = f.name
  schema : page.records ≠ [] → page.schema = f.schema

theorem isPage_assemble (name : String) (areCut : AreCut w (w.apply selection).size columns done) :
    IsPage w (assemble name selection.size columns) (assemble name (w.apply selection).size done) where
  records := by
    simp only [assemble, Window.cut_map, ← Window.map_range_apply, List.map_map]
    refine List.map_congr_left fun row mem => ?_
    have inside := Window.inside_of_lt_size (List.mem_range.1 mem)
    refine congrArg Record.mk (areCut.map_eq fun c c' isCut _ => ?_)
    simp only [isCut.cells, List.getD_eq_getElem?_getD, Window.getElem?_cut inside]
  name := rfl
  schema left := by
    refine congrArg Schema.mk (areCut.map_eq fun c c' isCut length => isCut.field ?_)
    rintro none
    rw [assemble, ← length, none] at left
    exact left rfl

/-- With a window a projection without groups and numbering makes a page of what it makes without one. -/
theorem exists_project_apply (builtin : context.registry = .builtin) (unnumbered : p.sequentialId = none) (w : Window)
    (h : p.project context sources selection none = .ok f) :
    ∃ page, p.project context sources (w.apply selection) none = .ok page ∧ IsPage w f page := by
  unfold project at h ⊢
  dsimp only [Option.map_none, Option.getD_none] at h ⊢
  split at h
  · cases h
  next fields =>
    split at h
    · cases h
    next aliases =>
      obtain ⟨columns, made, h⟩ := Outcome.bind_eq_ok.1 h
      cases h
      have step (done done' : List ColumnData) (field : String × Nat) (next : List ColumnData)
          (areCut : AreCut w (w.apply selection).size done done')
          (added : p.addColumn context sources selection none selection.size done field.1 p.aliases[field.2]? =
            .ok next) := exists_addColumn_apply builtin unnumbered areCut added
      obtain ⟨columns', made', areCut⟩ := Outcome.foldlM_related step .nil made
      rw [if_neg fields, if_neg aliases]
      exact ⟨_, Outcome.bind_eq_ok.2 ⟨columns', made', rfl⟩, isPage_assemble p.name areCut⟩

end Projection

end

/-! ## Selects -/

namespace SelectRequest

variable {r : SelectRequest} {context : Context} {sources : List Source} {f : Fragment}

/-- A window is cut out of the entries that a select shows without one. -/
theorem selection_window {condition : Option Expr} {selection : Selection} (whole : r.window = none)
    (h : r.selection context sources condition = .ok selection) (w : Window) :
    { r with window := some w }.selection context sources condition = .ok (w.apply selection) := by
  obtain ⟨kept, filtered, h⟩ := Outcome.bind_eq_ok.1 h
  refine Outcome.bind_eq_ok.2 ⟨kept, filtered, ?_⟩
  dsimp only at h ⊢
  rw [whole] at h
  split at h
  · obtain ⟨ordered, sorted, h⟩ := Outcome.bind_eq_ok.1 h
    cases h
    exact Outcome.bind_eq_ok.2 ⟨_, sorted, rfl⟩
  · cases h
    rfl

/-- With a window a select without groups and numbering makes a page of what it makes without one. -/
theorem exists_execute_window (builtin : context.registry = .builtin) (ungrouped : r.group = [])
    (unnumbered : r.sequentialId = none) (whole : r.window = none) (h : r.execute context sources = .ok f)
    (w : Window) :
    ∃ page, { r with window := some w }.execute context sources = .ok page ∧ Projection.IsPage w f page := by
  obtain ⟨condition, parsed, h⟩ := Outcome.bind_eq_ok.1 h
  obtain ⟨groupBy, grouped, h⟩ := Outcome.bind_eq_ok.1 h
  obtain ⟨selection, selected, h⟩ := Outcome.bind_eq_ok.1 h
  rw [ungrouped] at grouped
  cases grouped
  obtain ⟨page, projected, isPage⟩ := Projection.exists_project_apply builtin unnumbered w h
  refine ⟨page, Outcome.bind_eq_ok.2 ⟨condition, parsed, Outcome.bind_eq_ok.2 ⟨none, ?_, ?_⟩⟩, isPage⟩
  · rw [ungrouped]
    rfl
  · exact Outcome.bind_eq_ok.2 ⟨_, selection_window whole selected w, projected⟩

/-- A select without groups and numbering that succeeds as a whole succeeds with every window, and shows the records
from the offset on, as many as the limit, or all if it is zero. The columns are the same if a record is left. So its
pages, of whatever size, are the records of the whole one after another. -/
theorem pages_of_execute (builtin : context.registry = .builtin) (ungrouped : r.group = [])
    (unnumbered : r.sequentialId = none) (whole : r.window = none) (h : r.execute context sources = .ok f) :
    (∀ w : Window, ∃ page, { r with window := some w }.execute context sources = .ok page ∧
      page.records = f.records.extract w.offset
        (if w.limit = 0 then f.rowCount else min (w.offset + w.limit) f.rowCount) ∧
      (page.records ≠ [] → page.schema = f.schema)) ∧
    ∀ size, 0 < size → ∃ pages : Nat → Fragment,
      (∀ i, { r with window := some ⟨i * size, size⟩ }.execute context sources = .ok (pages i)) ∧
      ∀ m, f.rowCount ≤ m * size → (List.range m).flatMap (fun i => (pages i).records) = f.records := by
  have paged := exists_execute_window builtin ungrouped unnumbered whole h
  refine ⟨fun w => ?_, fun size positive => ?_⟩
  · obtain ⟨page, made, isPage⟩ := paged w
    exact ⟨page, made, isPage.records.trans (w.cut_eq_extract f.records), isPage.schema⟩
  · choose page made isPage using paged
    refine ⟨fun i => page ⟨i * size, size⟩, fun i => made _, fun m covered => ?_⟩
    simp only [fun i => (isPage ⟨i * size, size⟩).records]
    rw [Window.flatMap_cut positive, List.take_of_length_le covered]

/-- The readings from the least to the greatest, with a sum over each by itself. -/
def ascending : SelectRequest where
  name := "out"
  fields := ["v", "oph_sum(v) + id"]
  aliases := ["reading", "total"]
  condition := none
  group := []
  order := some "v"
  window := none
  sequentialId := none

/-- From the fourth on there are 20 and 25, and three pages of two are all of the five records. -/
theorem pages_of_execute_ascending :
    let context : Context := ⟨.builtin, [], 0⟩
    let shown := fun (entries : List (Long × Int)) => entries.map fun (reading, total) =>
      (⟨[Long.toBytes reading, (Binary64.ofInt total).toBytes]⟩ : Record)
    let out : Fragment := ⟨"out", ⟨[⟨"reading", .long, false⟩, ⟨"total", .real, false⟩]⟩,
      shown [(7, 12), (10, 11), (12, 14), (20, 23), (25, 29)], false⟩
    ascending.execute context [Projection.readings] = .ok out ∧
      (∃ page, { ascending with window := some ⟨3, 9⟩ }.execute context [Projection.readings] = .ok page ∧
        page.records = shown [(20, 23), (25, 29)] ∧ page.schema = out.schema) ∧
      ∃ pages : Nat → Fragment,
        (∀ i, { ascending with window := some ⟨i * 2, 2⟩ }.execute context [Projection.readings] = .ok (pages i)) ∧
        (List.range 3).flatMap (fun i => (pages i).records) = out.records := by
  intro context shown out
  have made : ascending.execute context [Projection.readings] = .ok out := by decide +kernel
  obtain ⟨windows, sizes⟩ := pages_of_execute rfl rfl rfl rfl made
  obtain ⟨page, part, records, schema⟩ := windows ⟨3, 9⟩
  obtain ⟨pages, parts, joined⟩ := sizes 2 (by decide)
  refine ⟨made, ⟨page, part, records, schema ?_⟩, pages, parts, joined 3 (by decide)⟩
  rw [records]
  exact List.cons_ne_nil _ _

end SelectRequest

end FragmentEngine
