import FragmentEngine.Proofs.Select.PlainColumn
import FragmentEngine.Proofs.Select.Projected
/-!
# Columns of members

With groups, a column that is neither constant nor the grouping expression nor aggregating shows every member. So it
has a cell for each entry of the selection, while there has to be one for each group. It is accepted only where every
group has a single member, and then it is what it would be without groups.
-/

namespace FragmentEngine

/-! ## Sizes of groups -/

namespace Group

variable {keyAt : Nat → Except Error String} {size : Nat} {groups : List Group}

theorem length_le_members (nonempty : ∀ g ∈ groups, g.members ≠ []) :
    groups.length ≤ (groups.flatMap members).length := by
  induction groups with
  | nil => exact Nat.zero_le _
  | cons g groups ih =>
    rw [List.forall_mem_cons] at nonempty
    have first := List.length_pos_iff.2 nonempty.1
    have others := ih nonempty.2
    rw [List.flatMap_cons, List.length_append, List.length_cons]
    omega

/-- There are fewer groups than members exactly if some group has several. -/
theorem length_lt_members (nonempty : ∀ g ∈ groups, g.members ≠ []) :
    groups.length < (groups.flatMap members).length ↔ ∃ g ∈ groups, 2 ≤ g.members.length := by
  induction groups with
  | nil => simp
  | cons g groups ih =>
    rw [List.forall_mem_cons] at nonempty
    have first := List.length_pos_iff.2 nonempty.1
    have others := length_le_members nonempty.2
    rw [List.exists_mem_cons_iff, ← ih nonempty.2, List.flatMap_cons, List.length_append, List.length_cons]
    omega

namespace SharesOut

theorem length_members (h : SharesOut keyAt size groups) : (groups.flatMap members).length = size :=
  h.shared.length_eq.trans List.length_range

theorem length_lt_size (h : SharesOut keyAt size groups) :
    groups.length < size ↔ ∃ g ∈ groups, 2 ≤ g.members.length := by
  rw [← length_lt_members h.nonempty, h.length_members]

/-- Groups of one member each are the entries in order. -/
theorem flatMap_members_eq_range (h : SharesOut keyAt size groups) (single : ∀ g ∈ groups, g.members.length = 1) :
    groups.flatMap members = List.range size := by
  have only : ∀ g ∈ groups, ∀ k ∈ g.members, k ∈ g.members.head? := fun g hg k hk => by
    obtain ⟨k', only⟩ := List.length_eq_one_iff.1 (single g hg)
    rw [only, List.mem_singleton] at hk
    rw [only, hk]
    exact rfl
  refine h.shared.eq_of_pairwise' ?_ List.pairwise_lt_range
  refine List.pairwise_flatMap.2 ⟨h.ascending, h.ordered.imp_of_mem fun hg hg' lt j hj k hk => ?_⟩
  exact lt j (only _ hg j hj) k (only _ hg' k hk)

theorem length_le_size (h : SharesOut keyAt size groups) : groups.length ≤ size :=
  h.length_members ▸ length_le_members h.nonempty

theorem length_eq_size (h : SharesOut keyAt size groups) (single : ∀ g ∈ groups, g.members.length = 1) :
    groups.length = size := by
  refine Nat.le_antisymm h.length_le_size (Nat.not_lt.1 fun lt => ?_)
  obtain ⟨g, hg, several⟩ := h.length_lt_size.1 lt
  exact absurd (single g hg) (by omega)

theorem single_of_not_several (h : SharesOut keyAt size groups) (none : ¬∃ g ∈ groups, 2 ≤ g.members.length) :
    ∀ g ∈ groups, g.members.length = 1 := fun g hg => by
  have some := List.length_pos_iff.2 (h.nonempty g hg)
  have few : ¬2 ≤ g.members.length := fun several => none ⟨g, hg, several⟩
  omega

end SharesOut

end Group

/-! ## One column -/

namespace Projection

variable {p : Projection} {context : Context} {sources : List Source} {selection : Selection} {text : String}
  {own e : Expr} {column : Column} {groups : List Group} {expected : Nat}

/-- The column of a field text shows the members of groups: it varies, it is neither the grouping expression nor
aggregating, and it has a value at every entry. -/
structure ShowsMembers (p : Projection) (context : Context) (sources : List Source) (selection : Selection)
    (text : String) (own : Expr) (column : Column) : Prop where
  unnumbered : p.sequentialId = none
  parsed : Expr.parse text = .ok own
  shown : Column.ofExpr context sources own = .ok column
  varies : column.isConstant = false
  other : p.groupBy ≠ some own
  plain : own.isAggregating context.registry = false
  evaluates : ∀ k < selection.size, ∃ v, own.valueAt context sources selection k = .ok v

namespace ShowsMembers

/-- Without groups the column is made of all entries. -/
theorem ungrouped_eq (h : p.ShowsMembers context sources selection text own column) :
    { p with groupBy := none }.column context sources selection none expected text =
      column.shownAt context sources selection (Text.trimmed text) (List.range selection.size) :=
  column_eq_shownAt h.parsed h.shown h.plain h.unnumbered fun constant => absurd constant (by simp [h.varies])

/-- With groups the column is made of all members. -/
theorem grouped_eq (h : p.ShowsMembers context sources selection text own column) :
    p.column context sources selection (some groups) expected text =
      column.shownAt context sources selection (Text.trimmed text) (groups.flatMap Group.members) := by
  rw [column_eq_shownAt h.parsed h.shown h.plain h.unnumbered fun constant => absurd constant (by simp [h.varies]),
    beq_false_of_ne h.other]
  rfl

/-- With a group of several members the column is refused. -/
theorem refused (h : p.ShowsMembers context sources selection text own column)
    (grouped : Group.ofSelection context sources selection e = .ok groups)
    (several : ∃ g ∈ groups, 2 ≤ g.members.length) (done : List ColumnData) (alias? : Option String) :
    ∃ cause, p.addColumn context sources selection (some groups) groups.length done text alias? =
      .error (.exec cause) := by
  have shared := Group.SharesOut.of_ofSelection grouped
  have values : ∀ k ∈ groups.flatMap Group.members, ∃ v, own.valueAt context sources selection k = .ok v :=
    fun k mem => h.evaluates k (List.mem_range.1 (shared.shared.mem_iff.1 mem))
  -- there is a member, and where an expression has a value its variables stand for something
  obtain ⟨binder, bound⟩ : ∃ binder, RowBinder.bind own sources context.args = .ok binder := by
    obtain ⟨v, value⟩ := h.evaluates 0 (Nat.zero_lt_of_lt (shared.length_lt_size.2 several))
    obtain ⟨binder, bound, -⟩ := Outcome.bind_eq_ok.1 value
    exact ⟨binder, bound⟩
  rcases made : column.shownAt context sources selection (Text.trimmed text) (groups.flatMap Group.members) with
    error | data
  · obtain ⟨cause, rfl⟩ :=
      Column.exec_of_shownAt (Column.shows_of_ofExpr h.shown) ⟨binder, bound⟩ values made
    exact ⟨cause, addColumn_of_error (h.grouped_eq.trans made)⟩
  · have length : data.cells.length = selection.size := (Column.length_of_shownAt made).trans shared.length_members
    have fewer := shared.length_lt_size.2 several
    exact ⟨_, addColumn_of_length_ne (h.grouped_eq.trans made) (by omega)⟩

/-- With groups of one member each the column is the one without groups. -/
theorem column_eq_of_single (h : p.ShowsMembers context sources selection text own column)
    (grouped : Group.ofSelection context sources selection e = .ok groups)
    (single : ∀ g ∈ groups, g.members.length = 1) :
    p.column context sources selection (some groups) expected text =
      { p with groupBy := none }.column context sources selection none expected text := by
  rw [h.grouped_eq, h.ungrouped_eq, (Group.SharesOut.of_ofSelection grouped).flatMap_members_eq_range single]

/-- With groups of one member each the column is added as it is without groups. -/
theorem addColumn_eq_of_single (h : p.ShowsMembers context sources selection text own column)
    (grouped : Group.ofSelection context sources selection e = .ok groups)
    (single : ∀ g ∈ groups, g.members.length = 1) (done : List ColumnData) (alias? : Option String) :
    p.addColumn context sources selection (some groups) groups.length done text alias? =
      { p with groupBy := none }.addColumn context sources selection none selection.size done text alias? := by
  unfold addColumn
  rw [h.column_eq_of_single grouped single, (Group.SharesOut.of_ofSelection grouped).length_eq_size single]

/-- With a group of several members no projection that comes to the column succeeds. -/
theorem project_refused (h : p.ShowsMembers context sources selection text own column)
    (grouped : Group.ofSelection context sources selection e = .ok groups)
    (several : ∃ g ∈ groups, 2 ≤ g.members.length) {before after : List String} {columns : List ColumnData}
    (fields : p.fields = before ++ text :: after)
    (made : before.zipIdx.foldlM (fun done (text, i) =>
      p.addColumn context sources selection (some groups) groups.length done text p.aliases[i]?) [] = .ok columns) :
    ∃ cause, p.project context sources selection (some groups) = .error (.exec cause) := by
  obtain ⟨cause, refused⟩ := h.refused grouped several columns p.aliases[before.length]?
  unfold project
  rw [if_neg (by simp [fields])]
  split
  · exact ⟨_, rfl⟩
  · refine ⟨cause, ?_⟩
    simp only [fields, List.zipIdx_append, List.zipIdx_cons, List.foldlM_append, List.foldlM_cons, Option.map_some,
      Option.getD_some, made, Nat.zero_add, Outcome.ok_bind, refused]
    rfl

/-- With the builtin functions the column can be made of any members. -/
theorem exists_shownAt (h : p.ShowsMembers context sources selection text own column)
    (builtin : context.registry = .builtin) (bound : ∃ binder, RowBinder.bind own sources context.args = .ok binder)
    {entries : List Nat} (lt : ∀ k ∈ entries, k < selection.size) :
    ∃ data, column.shownAt context sources selection (Text.trimmed text) entries = .ok data :=
  Column.exists_shownAt builtin (Column.shows_of_ofExpr h.shown) bound
    (fun k mem => h.evaluates k (lt k mem)) _

/-- With the builtin functions the column is refused for its length. -/
theorem columnLength_iff (h : p.ShowsMembers context sources selection text own column)
    (grouped : Group.ofSelection context sources selection e = .ok groups) (builtin : context.registry = .builtin)
    (bound : ∃ binder, RowBinder.bind own sources context.args = .ok binder) (done : List ColumnData)
    (alias? : Option String) :
    p.addColumn context sources selection (some groups) groups.length done text alias? =
      .error (.exec (.columnLength text selection.size groups.length)) ↔ ∃ g ∈ groups, 2 ≤ g.members.length := by
  have shared := Group.SharesOut.of_ofSelection grouped
  obtain ⟨data, made⟩ := h.exists_shownAt builtin bound fun k mem => List.mem_range.1 (shared.shared.mem_iff.1 mem)
  have length : data.cells.length = selection.size := (Column.length_of_shownAt made).trans shared.length_members
  have made : p.column context sources selection (some groups) groups.length text = .ok data := h.grouped_eq.trans made
  rw [← shared.length_lt_size]
  constructor
  · intro refused
    refine Nat.lt_of_le_of_ne shared.length_le_size fun same => ?_
    exact addColumn_ne_columnLength made (length.trans same.symm) refused
  · intro fewer
    rw [addColumn_of_length_ne made (by omega), length]

end ShowsMembers

/-- A column of members is refused exactly if some group has several. Where every group has one member it is the
column without groups. -/
theorem refused_iff_several (h : p.ShowsMembers context sources selection text own column)
    (grouped : Group.ofSelection context sources selection e = .ok groups) :
    (∀ done alias? columns,
      { p with groupBy := none }.addColumn context sources selection none selection.size done text alias? =
        .ok columns →
      ((∃ cause, p.addColumn context sources selection (some groups) groups.length done text alias? =
        .error (.exec cause)) ↔ ∃ g ∈ groups, 2 ≤ g.members.length)) ∧
    ((∃ g ∈ groups, 2 ≤ g.members.length) →
      (∀ done alias?, ∃ cause, p.addColumn context sources selection (some groups) groups.length done text alias? =
        .error (.exec cause)) ∧
      ∀ before after columns, p.fields = before ++ text :: after →
        before.zipIdx.foldlM (fun done (text, i) =>
          p.addColumn context sources selection (some groups) groups.length done text p.aliases[i]?) [] = .ok columns →
        ∃ cause, p.project context sources selection (some groups) = .error (.exec cause)) ∧
    ((∀ g ∈ groups, g.members.length = 1) →
      p.column context sources selection (some groups) groups.length text =
        { p with groupBy := none }.column context sources selection none selection.size text) ∧
    (context.registry = .builtin → (∃ binder, RowBinder.bind own sources context.args = .ok binder) →
      (∃ data, { p with groupBy := none }.column context sources selection none selection.size text = .ok data ∧
        data.cells.length = selection.size) ∧
      ∀ done alias?, p.addColumn context sources selection (some groups) groups.length done text alias? =
        .error (.exec (.columnLength text selection.size groups.length)) ↔ ∃ g ∈ groups, 2 ≤ g.members.length) := by
  have shared := Group.SharesOut.of_ofSelection grouped
  refine ⟨fun done alias? columns accepted => ⟨fun ⟨cause, refused⟩ => ?_, fun several => ?_⟩, fun several => ⟨?_, ?_⟩,
    fun single => ?_, fun builtin bound => ⟨?_, ?_⟩⟩
  · by_contra none
    rw [h.addColumn_eq_of_single grouped (shared.single_of_not_several none), accepted] at refused
    cases refused
  · exact h.refused grouped several done alias?
  · exact h.refused grouped several
  · exact fun _ _ _ fields made => h.project_refused grouped several fields made
  · rw [h.column_eq_of_single grouped single, shared.length_eq_size single]
  · obtain ⟨data, made⟩ := h.exists_shownAt builtin bound fun k mem => List.mem_range.1 mem
    exact ⟨data, h.ungrouped_eq.trans made, (Column.length_of_shownAt made).trans List.length_range⟩
  · exact h.columnLength_iff grouped builtin bound

/-- Blocks of four, by field text. -/
def blocks (key : Expr) : Projection := ⟨"out", ["oph_id(id, 4)"], [], none, some key⟩

/-- Blocks of four of five rows are refused where these are grouped in blocks of two, and they are shown as without
groups where every row is a group. -/
theorem refused_iff_several_blocks :
    let context : Context := ⟨.builtin, [], 0⟩
    let pairs : Expr := .call "oph_id" [.variable "id", .literal (.long 2)]
    let single : Expr := .variable "id"
    (∃ groups, Group.ofSelection context [readings] (.full 5) pairs = .ok groups ∧
      (∃ g ∈ groups, 2 ≤ g.members.length) ∧
      (blocks pairs).addColumn context [readings] (.full 5) (some groups) groups.length [] "oph_id(id, 4)" none =
        .error (.exec (.columnLength "oph_id(id, 4)" 5 3)) ∧
      ∃ cause, (blocks pairs).project context [readings] (.full 5) (some groups) = .error (.exec cause)) ∧
    ∃ groups, Group.ofSelection context [readings] (.full 5) single = .ok groups ∧
      (∀ g ∈ groups, g.members.length = 1) ∧
      (blocks single).column context [readings] (.full 5) (some groups) groups.length "oph_id(id, 4)" =
        { blocks single with groupBy := none }.column context [readings] (.full 5) none 5 "oph_id(id, 4)" := by
  intro context pairs single
  let own : Expr := .call "oph_id" [.variable "id", .literal (.long 4)]
  have bound : RowBinder.bind own [readings] [] = .ok ⟨[("id", .field 0 0)]⟩ := by decide +kernel
  have evaluates (k : Nat) (hk : k < 5) : ∃ v, own.valueAt context [readings] (.full 5) k = .ok v := by
    have all : (List.range 5).mapM (own.valueAt context [readings] (.full 5)) =
        .ok [.long 1, .long 1, .long 1, .long 1, .long 2] := by decide +kernel
    exact ⟨_, (Outcome.mapM_range_eq_ok.1 all).2 k hk⟩
  have member (key : Expr) (other : key ≠ own) :
      (blocks key).ShowsMembers context [readings] (.full 5) "oph_id(id, 4)" own (.expr own) :=
    { unnumbered := rfl
      parsed := by decide +kernel
      shown := rfl
      varies := rfl
      other := fun same => other (Option.some.inj same)
      plain := by decide +kernel
      evaluates := evaluates }
  have paired : Group.ofSelection context [readings] (.full 5) pairs =
      .ok [⟨"1", [0, 1]⟩, ⟨"2", [2, 3]⟩, ⟨"3", [4]⟩] := by decide +kernel
  have alone : Group.ofSelection context [readings] (.full 5) single =
      .ok [⟨"1", [0]⟩, ⟨"2", [1]⟩, ⟨"3", [2]⟩, ⟨"4", [3]⟩, ⟨"5", [4]⟩] := by decide +kernel
  have several : ∃ g ∈ [(⟨"1", [0, 1]⟩ : Group), ⟨"2", [2, 3]⟩, ⟨"3", [4]⟩], 2 ≤ g.members.length := by decide
  have each : ∀ g ∈ [(⟨"1", [0]⟩ : Group), ⟨"2", [1]⟩, ⟨"3", [2]⟩, ⟨"4", [3]⟩, ⟨"5", [4]⟩], g.members.length = 1 := by
    decide
  obtain ⟨-, refused, -, length⟩ := refused_iff_several (member pairs (by decide)) paired
  obtain ⟨-, -, same, -⟩ := refused_iff_several (member single (by decide)) alone
  exact ⟨⟨_, paired, several, ((length rfl ⟨_, bound⟩).2 [] none).2 several, (refused several).2 [] [] [] rfl rfl⟩,
    _, alone, each, same each⟩

end Projection

end FragmentEngine
