import FragmentEngine.Proofs.Outcome
import FragmentEngine.Server.Answer
/-!
# Drawn tables

What a client sees of a result that is drawn as a table. Widths are bytes and cells are filled up to them in characters;
since no text has more characters than bytes, every text fits its cell as it is, and the lines come out equally long.
A column that is wider than text can be padded to is the one reason for which a result is not drawn.
-/

namespace FragmentEngine

namespace Table

variable {names row texts : List String} {rows : List (List String)} {ws : List Nat} {text : String}

/-! ## Widths -/

/-- No text has more characters than bytes. -/
theorem length_le_utf8ByteSize (text : String) : text.length ≤ text.utf8ByteSize := by
  have characters (cs : List Char) : cs.length ≤ (String.ofList cs).utf8ByteSize := by
    induction cs with
    | nil => exact Nat.zero_le _
    | cons c cs ih =>
      have pos := c.utf8Size_pos
      rw [String.ofList_cons, String.utf8ByteSize_append, String.utf8ByteSize_singleton, List.length_cons]
      omega
  have here := characters text.toList
  rwa [String.ofList_toList, String.length_toList] at here

/-- Every text has room in its column. -/
def Fit (texts : List String) (ws : List Nat) : Prop := List.Forall₂ (fun text w => text.utf8ByteSize ≤ w) texts ws

theorem length_widen (ws : List Nat) (row : List String) : (widen ws row).length = ws.length := by
  induction ws generalizing row with
  | nil => cases row <;> rfl
  | cons w ws ih =>
    cases row with
    | nil => rfl
    | cons text row => rw [widen, List.length_cons, ih, List.length_cons]

/-- A column does not get narrower. -/
theorem Fit.widen (h : Fit texts ws) (row : List String) : Fit texts (widen ws row) := by
  induction h generalizing row with
  | nil => cases row <;> exact .nil
  | cons here others ih =>
    cases row with
    | nil => exact .cons here others
    | cons text row => exact .cons (Nat.le_trans here (Nat.le_max_left _ _)) (ih row)

theorem Fit.foldl (h : Fit texts ws) (rows : List (List String)) : Fit texts (rows.foldl Table.widen ws) := by
  induction rows generalizing ws with
  | nil => exact h
  | cons row rows ih => exact ih (h.widen row)

theorem fit_widen (h : row.length = ws.length) : Fit row (widen ws row) := by
  induction ws generalizing row with
  | nil =>
    rw [List.length_eq_zero_iff.1 h]
    exact .nil
  | cons w ws ih =>
    cases row with
    | nil => cases h
    | cons text row => exact .cons (Nat.le_max_right _ _) (ih (Nat.succ.inj h))

/-- The columns get as wide as every row needs. -/
theorem fit_foldl (full : ∀ row ∈ rows, row.length = ws.length) : ∀ row ∈ rows, Fit row (rows.foldl widen ws) := by
  induction rows generalizing ws with
  | nil => nofun
  | cons first rows ih =>
    rw [List.forall_mem_cons] at full ⊢
    refine ⟨(fit_widen full.1).foldl rows, ih fun row mem => ?_⟩
    rw [length_widen]
    exact full.2 row mem

theorem length_foldl (ws : List Nat) (rows : List (List String)) : (rows.foldl widen ws).length = ws.length := by
  induction rows generalizing ws with
  | nil => rfl
  | cons row rows ih => exact (ih _).trans (length_widen ws row)

theorem widen_le_iff {most : Nat} (h : row.length = ws.length) :
    (∀ w ∈ widen ws row, w ≤ most) ↔ (∀ w ∈ ws, w ≤ most) ∧ ∀ text ∈ row, text.utf8ByteSize ≤ most := by
  induction ws generalizing row with
  | nil => simp [List.length_eq_zero_iff.1 h, widen]
  | cons w ws ih =>
    cases row with
    | nil => cases h
    | cons text row =>
      rw [widen, List.forall_mem_cons, ih (Nat.succ.inj h), List.forall_mem_cons, List.forall_mem_cons, Nat.max_le]
      exact and_and_and_comm

/-- The columns get no wider than the names and the rows need. -/
theorem foldl_le_iff {most : Nat} (full : ∀ row ∈ rows, row.length = ws.length) :
    (∀ w ∈ rows.foldl widen ws, w ≤ most) ↔
      (∀ w ∈ ws, w ≤ most) ∧ ∀ row ∈ rows, ∀ text ∈ row, text.utf8ByteSize ≤ most := by
  induction rows generalizing ws with
  | nil => simp
  | cons first rows ih =>
    rw [List.forall_mem_cons] at full
    have others : ∀ row ∈ rows, row.length = (widen ws first).length := by
      rw [length_widen]
      exact full.2
    rw [List.foldl_cons, ih others, widen_le_iff full.1, List.forall_mem_cons, and_assoc]

/-! ## Lines -/

/-- A cell shows a text: it has the whole of it, between blanks. -/
def Shows (text : String) (cell : List Char) : Prop :=
  ∃ before after, cell = List.replicate (before + 1) ' ' ++ (text.toList ++ List.replicate (after + 1) ' ')

/-- A line has a cell for each text, as wide as its column, and bars around the cells. -/
def HasCells (ws : List Nat) (texts : List String) (line : List Char) : Prop :=
  ∃ cells, line = '|' :: cells.flatMap (· ++ ['|']) ∧ List.Forall₂ Shows texts cells ∧
    cells.map List.length = ws.map (· + 2)

/-- The line between the rows. -/
def edge (ws : List Nat) : List Char := '+' :: ws.flatMap fun w => List.replicate (w + 2) '-' ++ ['+']

/-- A way to fill a text up to a width. -/
def Fills (align : Nat → String → String) : Prop := ∀ width text, text.length ≤ width → ∃ before after,
  before + text.length + after = width ∧
    (align width text).toList = List.replicate before ' ' ++ (text.toList ++ List.replicate after ' ')

theorem fills_rightAligned : Fills rightAligned := fun width text fits =>
  ⟨width - text.length, 0, by omega, by simp [rightAligned, blanks]⟩

theorem fills_centred : Fills centred := by
  intro width text fits
  let free := width - text.length
  exact ⟨free / 2, free - free / 2, by omega, by simp [centred, blanks, free]⟩

/-- Items with a separator behind each are the items with separators between them and one behind the last. -/
theorem intercalate_append {α : Type} {sep : List α} {items : List (List α)} (some : items ≠ []) :
    sep.intercalate items ++ sep = items.flatMap (· ++ sep) := by
  induction items with
  | nil => exact absurd rfl some
  | cons item rest ih =>
    cases rest with
    | nil => simp
    | cons next rest =>
      rw [List.intercalate_cons_cons, List.append_assoc, ih (List.cons_ne_nil next rest)]
      rfl

theorem toList_rule (some : ws ≠ []) : (rule ws).toList = edge ws ++ ['\n'] := by
  have items : ws.map (fun w => List.replicate (w + 2) '-') ≠ [] := fun none => some (List.map_eq_nil_iff.1 none)
  have line := @intercalate_append _ ['+'] _ items
  rw [List.flatMap_map] at line
  rw [edge, ← line]
  simp [rule, String.toList_intercalate, Function.comp_def, toString]

/-- The cell of a text: a blank on either side of the filled text. -/
def cell (align : Nat → String → String) (text : String) (w : Nat) : List Char :=
  ' ' :: ((align w text).toList ++ [' '])

theorem Fills.cell {align : Nat → String → String} (fills : Fills align) {w : Nat} (room : text.utf8ByteSize ≤ w) :
    Shows text (cell align text w) ∧ (cell align text w).length = w + 2 := by
  obtain ⟨before, after, width, filled⟩ := fills w text (Nat.le_trans (length_le_utf8ByteSize text) room)
  have whole : Table.cell align text w =
      List.replicate (before + 1) ' ' ++ (text.toList ++ List.replicate (after + 1) ' ') := by
    rw [Table.cell, filled, List.replicate_succ, List.replicate_succ']
    simp
  refine ⟨⟨before, after, whole⟩, ?_⟩
  simp only [whole, List.length_append, List.length_replicate, String.length_toList]
  omega

theorem Fills.cells {align : Nat → String → String} (fills : Fills align) (h : Fit texts ws) :
    List.Forall₂ Shows texts (List.zipWith (Table.cell align) texts ws) ∧
      (List.zipWith (Table.cell align) texts ws).map List.length = ws.map (· + 2) := by
  induction h with
  | nil => exact ⟨.nil, rfl⟩
  | cons room _ ih =>
    obtain ⟨shows, length⟩ := fills.cell room
    exact ⟨.cons shows ih.1, congrArg₂ _ length ih.2⟩

/-- The line of a row: it has a cell for each text if all have room in their columns. -/
theorem Fills.toList_row {align : Nat → String → String} (fills : Fills align) (h : Fit texts ws) (some : texts ≠ []) :
    ∃ line, (Table.row align ws texts).toList = line ++ ['\n'] ∧ HasCells ws texts line := by
  let cells := List.zipWith (Table.cell align) texts ws
  have items : cells ≠ [] := by
    cases h with
    | nil => exact absurd rfl some
    | cons => exact List.cons_ne_nil _ _
  refine ⟨'|' :: cells.flatMap (· ++ ['|']), ?_, cells, rfl, fills.cells h⟩
  rw [← @intercalate_append _ ['|'] _ items]
  simp [Table.row, List.zip, toString, String.toList_intercalate, List.map_zipWith]
  rfl

/-- Every line is as long as the line between the rows. -/
theorem HasCells.length {line : List Char} (h : HasCells ws texts line) : line.length = (edge ws).length := by
  obtain ⟨cells, rfl, -, lengths⟩ := h
  rw [edge, List.length_cons, List.length_cons, List.length_flatMap, List.length_flatMap]
  simp only [List.length_append, List.length_replicate, List.length_singleton]
  rw [← Function.comp_def (· + 1) List.length, ← List.map_map, lengths, List.map_map]
  rfl

theorem HasCells.unbroken {line : List Char} (h : HasCells ws texts line)
    (unbroken : ∀ text ∈ texts, '\n' ∉ text.toList) : '\n' ∉ line := by
  obtain ⟨cells, rfl, shows, -⟩ := h
  intro mem
  rcases List.mem_cons.1 mem with bar | mem
  · cases bar
  obtain ⟨cell, among, mem⟩ := List.mem_flatMap.1 mem
  obtain ⟨text, given, before, after, rfl⟩ := Outcome.exists_of_mem shows among
  simp [unbroken text given] at mem

/-! ## Tables -/

/-- The lines of a table but for the last one: the names are between two edges, and the rows, if there are any, have one
more below. -/
def lines (ws : List Nat) (header : List Char) (body : List (List Char)) : List (List Char) :=
  edge ws :: header :: edge ws :: (body ++ if body = [] then [] else [edge ws])

/-- The last line. -/
def count (rows : List (List String)) : List Char := s!"{rows.length} row(s) returned".toList

/-- A text is a table of rows under names: its lines end in line feeds and, but for the last one, are equally long. -/
def Draws (names : List String) (rows : List (List String)) (text : String) : Prop :=
  ∃ ws header body, HasCells ws names header ∧ List.Forall₂ (HasCells ws) rows body ∧
    text.toList = (lines ws header body ++ [count rows]).flatMap (· ++ ['\n']) ∧
    (∀ line ∈ lines ws header body ++ [count rows], '\n' ∉ line) ∧
    ∀ line ∈ lines ws header body, line.length = (edge ws).length

theorem forall_mem_lines {p : List Char → Prop} {header : List Char} {body : List (List Char)} (first : p (edge ws))
    (second : p header) (others : ∀ line ∈ body, p line) : ∀ line ∈ lines ws header body, p line := by
  have closing : ∀ line ∈ (if body = [] then [] else [edge ws]), p line := by
    split
    · nofun
    · exact List.forall_mem_singleton.2 first
  simp only [lines, List.forall_mem_cons, List.forall_mem_append]
  exact ⟨first, second, first, others, closing⟩

theorem unbroken_edge (ws : List Nat) : '\n' ∉ edge ws := by
  simp [edge, List.mem_flatMap]

theorem unbroken_count (rows : List (List String)) : '\n' ∉ count rows := by
  have digits : '\n' ∉ Nat.toDigits 10 rows.length := fun mem => by
    have digit := Nat.isDigit_of_mem_toDigits (by decide) (by decide) mem
    cases digit
  simp only [count, toString]
  simp [digits]

/-- The rows have a line each, with its line feed. -/
theorem exists_body (fit : ∀ row ∈ rows, Fit row ws) (some : ∀ row ∈ rows, row ≠ []) : ∃ body : List (List Char),
    (String.join (rows.map (Table.row rightAligned ws))).toList = body.flatMap (· ++ ['\n']) ∧
      List.Forall₂ (HasCells ws) rows body := by
  induction rows with
  | nil => exact ⟨[], rfl, .nil⟩
  | cons row rows ih =>
    rw [List.forall_mem_cons] at fit some
    obtain ⟨line, drawn, here⟩ := fills_rightAligned.toList_row fit.1 some.1
    obtain ⟨body, others, below⟩ := ih fit.2 some.2
    refine ⟨line :: body, ?_, .cons here below⟩
    rw [List.map_cons, String.join_cons, String.toList_append, drawn, others, List.flatMap_cons]

/-- The text is made of the lines of the names and of the rows. -/
theorem toList_text {header : List Char} {body : List (List Char)} (wide : widths names rows ≠ [])
    (top : (Table.row centred (widths names rows) names).toList = header ++ ['\n'])
    (middle : (String.join (rows.map (Table.row rightAligned (widths names rows)))).toList =
      body.flatMap (· ++ ['\n'])) (same : rows.length = body.length) :
    (Table.text names rows).toList = (lines (widths names rows) header body ++ [count rows]).flatMap (· ++ ['\n']) := by
  have edges := toList_rule wide
  have last : (s!"{rows.length} row(s) returned\n").toList = count rows ++ ['\n'] := by simp [count, toString]
  have closing : (if rows.isEmpty then "" else rule (widths names rows)).toList =
      (if body = [] then [] else [edge (widths names rows)]).flatMap (· ++ ['\n']) := by
    cases rows with
    | nil => simp [List.length_eq_zero_iff.1 same.symm]
    | cons row rows =>
      have some : body ≠ [] := List.ne_nil_of_length_pos (same ▸ Nat.zero_lt_succ _)
      rw [if_neg some, List.flatMap_singleton, ← edges]
      rfl
  have whole : Table.text names rows = rule (widths names rows) ++ (Table.row centred (widths names rows) names ++
      (rule (widths names rows) ++ (String.join (rows.map (Table.row rightAligned (widths names rows))) ++
        ((if rows.isEmpty then "" else rule (widths names rows)) ++ s!"{rows.length} row(s) returned\n")))) := by
    simp only [Table.text, toString, String.append_assoc]
  rw [whole, String.toList_append, edges, String.toList_append, top, String.toList_append, edges,
    String.toList_append, middle, String.toList_append, closing, last]
  simp [lines]

theorem text_draws (some : names ≠ []) (full : ∀ row ∈ rows, row.length = names.length)
    (unbroken : ∀ text ∈ names, '\n' ∉ text.toList) (unbroken' : ∀ row ∈ rows, ∀ text ∈ row, '\n' ∉ text.toList) :
    Draws names rows (Table.text names rows) := by
  have full' : ∀ row ∈ rows, row.length = (names.map String.utf8ByteSize).length := by
    rw [List.length_map]
    exact full
  have start : Fit names (names.map String.utf8ByteSize) :=
    List.forall₂_map_right_iff.2 (List.forall₂_same.2 fun _ _ => Nat.le_refl _)
  have wide : widths names rows ≠ [] := by
    have length : (widths names rows).length = names.length := (length_foldl _ rows).trans (List.length_map _)
    rw [← List.length_pos_iff, length]
    exact List.length_pos_iff.2 some
  have filled : ∀ row ∈ rows, row ≠ [] := fun row mem none => by
    have length := full row mem
    rw [none] at length
    exact some (List.length_eq_zero_iff.1 length.symm)
  obtain ⟨header, top, heads⟩ := fills_centred.toList_row (start.foldl rows) some
  obtain ⟨body, middle, below⟩ := exists_body (fit_foldl full') filled
  refine ⟨widths names rows, header, body, heads, below, toList_text wide top middle below.length_eq, ?_, ?_⟩
  · refine List.forall_mem_append.2 ⟨?_, List.forall_mem_singleton.2 (unbroken_count rows)⟩
    refine forall_mem_lines (unbroken_edge _) (heads.unbroken unbroken) fun line mem => ?_
    obtain ⟨row, given, cells⟩ := Outcome.exists_of_mem below mem
    exact cells.unbroken (unbroken' row given)
  · refine forall_mem_lines rfl heads.length fun line mem => ?_
    obtain ⟨row, -, cells⟩ := Outcome.exists_of_mem below mem
    exact cells.length

end Table

/-! ## Answers -/

namespace QueryResult

variable {r : QueryResult}

/-- A result that is drawn with a line for each row: it has columns and no message, its rows have a value for each
column, and no name and no value as it is displayed breaks a line. -/
structure Tabular (r : QueryResult) : Prop where
  named : r.columns ≠ []
  silent : r.message = none
  full : ∀ row ∈ r.rows, row.length = r.columns.length
  names : ∀ name ∈ r.columns, '\n' ∉ name.toList
  values : ∀ row ∈ r.rows, ∀ v ∈ row, '\n' ∉ v.display.toList

/-- The rows as they are displayed. -/
def displayed (r : QueryResult) : List (List String) := r.rows.map fun row => row.map Value.display

/-- Text can be padded to the width of every name and value. -/
def Narrow (r : QueryResult) : Prop :=
  (∀ name ∈ r.columns, name.utf8ByteSize ≤ Table.maxWidth) ∧
    ∀ row ∈ r.rows, ∀ v ∈ row, v.display.utf8ByteSize ≤ Table.maxWidth

theorem Tabular.length_displayed (h : r.Tabular) : ∀ row ∈ r.displayed, row.length = r.columns.length := by
  intro row mem
  obtain ⟨values, given, rfl⟩ := List.mem_map.1 mem
  rw [List.length_map]
  exact h.full values given

theorem Tabular.narrow_iff (h : r.Tabular) :
    r.Narrow ↔ (Table.widths r.columns r.displayed).all (· ≤ Table.maxWidth) = true := by
  have full : ∀ row ∈ r.displayed, row.length = (r.columns.map String.utf8ByteSize).length := by
    rw [List.length_map]
    exact h.length_displayed
  simp only [List.all_eq_true, decide_eq_true_eq]
  rw [Table.widths, Table.foldl_le_iff full, Narrow]
  simp [displayed]

theorem Tabular.answer_eq (h : r.Tabular) : r.answer .table = Table.render r.columns r.displayed := by
  unfold answer
  rw [h.silent]
  exact if_neg (by simp [h.named])

theorem Tabular.answer_wide (h : r.Tabular) (wide : ¬r.Narrow) : r.answer .table = .error .overflow := by
  rw [h.answer_eq, Table.render, if_neg (mt h.narrow_iff.2 wide)]

/-- A result is drawn as a table, whose lines but the last one are equally long and have each name and value in full in
a cell of its own, unless there is a column that text cannot be padded to. Then nothing is drawn. -/
theorem answer_draws (r : QueryResult) (h : r.Tabular) :
    (r.Narrow → ∃ text, r.answer .table = .ok text ∧ Table.Draws r.columns r.displayed text) ∧
      (¬r.Narrow → r.answer .table = .error .overflow) := by
  refine ⟨fun narrow => ⟨Table.text r.columns r.displayed, ?_, ?_⟩, h.answer_wide⟩
  · rw [h.answer_eq, Table.render, if_pos (h.narrow_iff.1 narrow)]
  · refine Table.text_draws h.named h.length_displayed h.names fun row mem text given => ?_
    obtain ⟨values, among, rfl⟩ := List.mem_map.1 mem
    obtain ⟨v, there, rfl⟩ := List.mem_map.1 given
    exact h.values values among v there

/-- Names and values with characters of one to four bytes. -/
theorem answer_draws_manyBytes :
    let r : QueryResult := ⟨["größe", "x"], [[.long 7, .str "€"], [.str "ab", .str "𝄞𝄞"]], 0, none⟩
    let text := "+---------+----------+\n|  größe  |    x     |\n+---------+----------+\n" ++
      "|       7 |        € |\n|      ab |       𝄞𝄞 |\n+---------+----------+\n2 row(s) returned\n"
    r.Tabular ∧ r.Narrow ∧ r.answer .table = .ok text ∧ Table.Draws r.columns r.displayed text := by
  intro r text
  have tabular : r.Tabular := ⟨by decide, rfl, by decide, by decide +kernel, by decide +kernel⟩
  have narrow : r.Narrow := ⟨by decide +kernel, by decide +kernel⟩
  have answered : r.answer .table = .ok text := by decide +kernel
  obtain ⟨drawn, same, draws⟩ := (answer_draws r tabular).1 narrow
  cases same.symm.trans answered
  exact ⟨tabular, narrow, answered, draws⟩

/-- A name may take up more bytes than text can be padded to. -/
theorem answer_not_drawn :
    let r : QueryResult := ⟨[String.ofList (List.replicate 65536 'a')], [], 0, none⟩
    r.Tabular ∧ r.answer .table = .error .overflow := by
  intro r
  have tabular : r.Tabular := by
    refine ⟨List.cons_ne_nil _ _, rfl, nofun, fun name mem => ?_, nofun⟩
    rw [List.mem_singleton.1 mem, String.toList_ofList]
    exact fun broken => absurd (List.eq_of_mem_replicate broken) (by decide)
  refine ⟨tabular, tabular.answer_wide fun narrow => ?_⟩
  have most := Nat.le_trans (Table.length_le_utf8ByteSize _) (narrow.1 _ List.mem_cons_self)
  rw [String.length_ofList, List.length_replicate] at most
  exact absurd most (by decide)

end QueryResult

end FragmentEngine
