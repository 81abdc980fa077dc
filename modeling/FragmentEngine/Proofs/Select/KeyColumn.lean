import FragmentEngine.Proofs.Select.PlainColumn
import FragmentEngine.Proofs.Select.Projected
/-!
# The column of the grouping expression

A column that shows the grouping expression has one cell for each group. Whether it is repeated, copied or evaluated
at the last member of the group, it is read back as a value that has the key of the group.
-/

namespace FragmentEngine

namespace Projection

variable {p : Projection} {context : Context} {sources : List Source} {selection : Selection} {e : Expr}
  {groups : List Group} {text : String} {data : ColumnData}

/-- The grouping expression is shown at a member of each group. -/
theorem forall₂_shownEntries (selection : Selection) (nonempty : ∀ g ∈ groups, g.members ≠ []) :
    List.Forall₂ (fun g k => k ∈ g.members) groups (shownEntries selection (some groups) true) := by
  simp only [shownEntries, if_true]
  induction groups with
  | nil => exact .nil
  | cons g groups ih =>
    rw [List.forall_mem_cons] at nonempty
    obtain ⟨k, last⟩ := Option.ne_none_iff_exists'.1 fun none => nonempty.1 (List.getLast?_eq_none_iff.1 none)
    rw [List.filterMap_cons, last]
    exact .cons (List.mem_of_getLast? last) (ih nonempty.2)

/-- The cells of the grouping expression are read back as values that have the keys of the groups. -/
theorem forall₂_key (builtin : context.registry = .builtin) (unnumbered : p.sequentialId = none)
    (groupBy : p.groupBy = some e) (grouped : Group.ofSelection context sources selection e = .ok groups)
    (parsed : Expr.parse text = .ok e)
    (made : p.column context sources selection (some groups) groups.length text = .ok data) :
    List.Forall₂ (fun g cell => ∃ v, Cell.decode data.field.type cell = .ok v ∧ v.groupKey = .ok g.key)
      groups data.cells := by
  have shared := Group.SharesOut.of_ofSelection grouped
  have plain := (Group.ofSelection_eq_ok.1 grouped).1
  have entries := forall₂_shownEntries selection shared.nonempty
  -- every entry that is shown has a value with the key of its group
  have keyed : List.Forall₂ (fun g k => ∃ v, e.valueAt context sources selection k = .ok v ∧ v.groupKey = .ok g.key)
      groups (shownEntries selection (some groups) true) := by
    refine ((List.forall₂_and_left _ _).2 ⟨fun g hg => hg, entries⟩).imp ?_
    rintro g k ⟨hg, hk⟩
    exact Outcome.bind_eq_ok.1 (shared.keyed g hg k hk)
  have values : ∀ k ∈ shownEntries selection (some groups) true,
      ∃ v, e.valueAt context sources selection k = .ok v := by
    intro k hk
    obtain ⟨g, -, v, value, -⟩ := Outcome.exists_of_mem keyed hk
    exact ⟨v, value⟩
  obtain ⟨column, shown⟩ : ∃ column, Column.ofExpr context sources e = .ok column := by
    obtain ⟨e', parsed', made⟩ := Outcome.bind_eq_ok.1 made
    cases parsed.symm.trans parsed'
    obtain ⟨column, shown, -⟩ := Outcome.bind_eq_ok.1 made
    exact ⟨column, shown⟩
  have key : (p.groupBy == some e) = true := by rw [groupBy, beq_self_eq_true]
  rw [column_eq_shownAt parsed shown plain unnumbered fun _ => by rw [key, entries.length_eq], key] at made
  have readBack := Column.readBack_of_shownAt builtin (Column.shows_of_ofExpr shown) values made
  refine (Outcome.forall₂_trans keyed readBack).imp ?_
  rintro g cell ⟨k, ⟨v, value, key⟩, w, value', decoded⟩
  cases value.symm.trans value'
  exact ⟨v, decoded, key⟩

/-- A grouped output has a row for each group, and its value for the grouping expression has the key of the group. -/
theorem groupKey_of_project {f : Fragment} (builtin : context.registry = .builtin) (unnumbered : p.sequentialId = none)
    (groupBy : p.groupBy = some e) (grouped : Group.ofSelection context sources selection e = .ok groups)
    (h : p.project context sources selection (some groups) = .ok f) :
    f.rowCount = groups.length ∧
    ∀ i text, p.fields[i]? = some text → Expr.parse text = .ok e →
      ∀ row g, groups[row]? = some g → ∃ v, f.value row i = .ok v ∧ v.groupKey = .ok g.key := by
  obtain ⟨columns, made, rfl⟩ := forall₂_of_project h
  refine ⟨rowCount_assemble p.name groups.length columns, fun i text field shown row g group => ?_⟩
  obtain ⟨c, column, data, made, type, cells⟩ := Outcome.exists_getElem?_of_forall₂ made field
  have keys := forall₂_key builtin unnumbered groupBy grouped shown made
  obtain ⟨cell, stored, v, decoded, key⟩ := Outcome.exists_getElem?_of_forall₂ keys group
  have lt : row < groups.length := (List.getElem?_eq_some_iff.1 group).1
  refine ⟨v, ?_, key⟩
  rw [← decoded, ← type]
  exact value_assemble lt column (cells ▸ stored)

end Projection

/-- Values that have the keys of groups are distinct. -/
theorem Group.SharesOut.eq_of_value_eq {keyAt : Nat → Except Error String} {size : Nat} {groups : List Group}
    (h : SharesOut keyAt size groups) {value : Nat → Except Error Value}
    (keyed : ∀ row g, groups[row]? = some g → ∃ v, value row = .ok v ∧ v.groupKey = .ok g.key) {row row' : Nat}
    (lt : row < groups.length) (lt' : row' < groups.length) (same : value row = value row') : row = row' := by
  obtain ⟨v, here, key⟩ := keyed row groups[row] (List.getElem?_eq_getElem lt)
  obtain ⟨v', there, key'⟩ := keyed row' groups[row'] (List.getElem?_eq_getElem lt')
  cases here.symm.trans (same.trans there)
  have sameKey : groups[row].key = groups[row'].key := Except.ok.inj (key.symm.trans key')
  rw [← List.length_map Group.key] at lt lt'
  have same : (groups.map Group.key)[row] = (groups.map Group.key)[row'] := by
    rwa [List.getElem_map, List.getElem_map]
  exact h.distinct.getElem_inj_iff.1 same

namespace SelectRequest

variable {r : SelectRequest} {context : Context} {sources : List Source} {f : Fragment} {e : Expr}

/-- What a grouped select makes is projected from groups. -/
theorem grouped_of_execute (groupBy : Group.parse r.group = .ok (some e)) (h : r.execute context sources = .ok f) :
    ∃ condition selection groups, r.condition.mapM Expr.parse = .ok condition ∧
      r.selection context sources condition = .ok selection ∧
      Group.ofSelection context sources selection e = .ok groups ∧
      (⟨r.name, r.fields, r.aliases, r.sequentialId, some e⟩ : Projection).project context sources selection
        (some groups) = .ok f := by
  obtain ⟨condition, parsed, h⟩ := Outcome.bind_eq_ok.1 h
  obtain ⟨groupBy', parsed', h⟩ := Outcome.bind_eq_ok.1 h
  cases groupBy.symm.trans parsed'
  obtain ⟨selection, selected, h⟩ := Outcome.bind_eq_ok.1 h
  obtain ⟨_, mapped, h⟩ := Outcome.bind_eq_ok.1 h
  obtain ⟨groups, grouped, done⟩ := Outcome.bind_eq_ok.1 mapped
  cases done
  exact ⟨condition, selection, groups, parsed, selected, grouped, h⟩

/-- A column of the grouping expression shows the keys: its value in the row of a group has the group's key. So no two
rows have the same value there. -/
theorem groupKey_of_execute (builtin : context.registry = .builtin) (unnumbered : r.sequentialId = none)
    (groupBy : Group.parse r.group = .ok (some e)) (h : r.execute context sources = .ok f) :
    ∃ condition selection groups, r.condition.mapM Expr.parse = .ok condition ∧
      r.selection context sources condition = .ok selection ∧
      Group.ofSelection context sources selection e = .ok groups ∧ f.rowCount = groups.length ∧
      ∀ i text, r.fields[i]? = some text → Expr.parse text = .ok e →
        (∀ row g, groups[row]? = some g → ∃ v, f.value row i = .ok v ∧ v.groupKey = .ok g.key) ∧
        ∀ row row', row < f.rowCount → row' < f.rowCount → f.value row i = f.value row' i → row = row' := by
  obtain ⟨condition, selection, groups, parsed, selected, grouped, projected⟩ := grouped_of_execute groupBy h
  obtain ⟨count, keyed⟩ := Projection.groupKey_of_project builtin unnumbered rfl grouped projected
  refine ⟨condition, selection, groups, parsed, selected, grouped, count, fun i text field shown => ?_⟩
  have keyed := keyed i text field shown
  refine ⟨keyed, fun row row' lt lt' => ?_⟩
  rw [count] at lt lt'
  exact (Group.SharesOut.of_ofSelection grouped).eq_of_value_eq keyed lt lt'

/-- The maxima of blocks of two, with the number of the block. -/
def maxima : SelectRequest where
  name := "out"
  fields := ["oph_max(v)", "oph_id( id , 2 )"]
  aliases := ["top", "block"]
  condition := none
  group := ["oph_id(id,2)"]
  order := none
  window := none
  sequentialId := none

/-- The block is shown although it is written differently: 1, 2 and 3. -/
theorem groupKey_of_execute_maxima :
    ∃ f, maxima.execute ⟨.builtin, [], 0⟩ [Projection.readings] = .ok f ∧
      f.records = ([(12, 1), (25, 2), (7, 3)].map fun (top, block) =>
        ⟨[(Binary64.ofInt top).toBytes, Long.toBytes block]⟩) ∧
      (∃ v, f.value 1 1 = .ok v ∧ v.groupKey = .ok "2") ∧
      ∀ row row', row < 3 → row' < 3 → f.value row 1 = f.value row' 1 → row = row' := by
  let block : Expr := .call "oph_id" [.variable "id", .literal (.long 2)]
  let out : Fragment := ⟨"out", ⟨[⟨"top", .real, false⟩, ⟨"block", .long, false⟩]⟩,
    [(12, 1), (25, 2), (7, 3)].map fun (top, block) => ⟨[(Binary64.ofInt top).toBytes, Long.toBytes block]⟩, false⟩
  have made : maxima.execute ⟨.builtin, [], 0⟩ [Projection.readings] = .ok out := by decide +kernel
  have all : maxima.selection ⟨.builtin, [], 0⟩ [Projection.readings] none = .ok (.full 5) := by decide +kernel
  have grouped : Group.ofSelection ⟨.builtin, [], 0⟩ [Projection.readings] (.full 5) block =
      .ok [⟨"1", [0, 1]⟩, ⟨"2", [2, 3]⟩, ⟨"3", [4]⟩] := by decide +kernel
  obtain ⟨condition, selection, groups, parsed, selected, grouped', -, shown⟩ :=
    groupKey_of_execute (e := block) rfl rfl (by decide +kernel) made
  cases parsed
  cases all.symm.trans selected
  cases grouped.symm.trans grouped'
  obtain ⟨keyed, distinct⟩ := shown 1 "oph_id( id , 2 )" rfl (by decide +kernel)
  exact ⟨out, made, rfl, keyed 1 ⟨"2", [2, 3]⟩ rfl, distinct⟩

end SelectRequest

end FragmentEngine
