import FragmentEngine.Proofs.Expr.Agreement
import FragmentEngine.Proofs.Expr.SymbolTable
import FragmentEngine.Proofs.Outcome
import FragmentEngine.Select.Binding
/-!
# Expressions over combined rows

What an expression stands for when every source contributes one row: each variable has the value of the field
or argument that its name resolves to. The symbol table that a binder fills for an entry of a selection gives
the same value, for the rows of that entry.
-/

namespace FragmentEngine

/-! ## Combined rows -/

/-- The value of a binding for one row of each source. -/
def Binding.valueIn (sources : List Source) (rows : List Nat) : Binding → Except Error Value
  | .argument v => .ok v
  | .field source column =>
    match sources[source]?, rows[source]? with
    | some s, some row => s.fragment.value row column
    | _, _ => .error (.exec .noSources)

/-- A table has, for each variable of an expression, the value in combined rows of what its name stands for. -/
def SymbolTable.Describes (t : SymbolTable) (context : Context) (sources : List Source) (rows : List Nat)
    (e : Expr) : Prop :=
  t.registry = context.registry ∧ ∀ name ∈ e.variables, ∃ b v,
    resolveVariable name sources context.args = .ok b ∧ b.valueIn sources rows = .ok v ∧ t.value name = .ok v

/-- An expression has a value over combined rows. -/
def Expr.Yields (context : Context) (sources : List Source) (rows : List Nat) (e : Expr) (v : Value) : Prop :=
  ∃ t : SymbolTable, t.Describes context sources rows e ∧ e.evaluate t = .ok v

/-- Tables that describe the same rows give an expression the same value. -/
theorem SymbolTable.Describes.evaluate_eq {t u : SymbolTable} {context : Context} {sources : List Source}
    {rows : List Nat} {e : Expr} (ht : t.Describes context sources rows e)
    (hu : u.Describes context sources rows e) : e.evaluate t = e.evaluate u := by
  refine Expr.evaluate_congr ⟨ht.1.trans hu.1.symm, fun name mem => ?_⟩
  obtain ⟨b, v, hb, hv, htv⟩ := ht.2 name mem
  obtain ⟨b', v', hb', hv', huv⟩ := hu.2 name mem
  rw [hb] at hb'; cases hb'
  rw [hv] at hv'; cases hv'
  rw [htv, huv]

/-! ## The table of an entry -/

/-- The rows of an entry of a selection, one of each source. -/
def Selection.rowsAt (s : Selection) (sources : List Source) (k : Nat) : List Nat :=
  (List.range sources.length).map fun i => s.row i k

theorem Selection.getElem?_rowsAt (s : Selection) (sources : List Source) (i k : Nat) :
    (s.rowsAt sources k)[i]? = if i < sources.length then some (s.row i k) else none := by
  by_cases h : i < sources.length <;> simp [rowsAt, h]

namespace RowBinder

theorem valueIn_rowsAt (sources : List Source) (s : Selection) (k : Nat) (b : Binding) :
    b.valueIn sources (s.rowsAt sources k) = value sources s k b := by
  cases b with
  | argument v => rfl
  | field source column =>
    simp only [Binding.valueIn, value, Selection.getElem?_rowsAt]
    by_cases h : source < sources.length
    · simp [h]
    · simp [List.getElem?_eq_none (Nat.le_of_not_lt h)]

/-- Adding variables one by one: each has the value of its binding, and all else is as before. -/
theorem foldlM_add {val : Binding → Except Error Value} {bindings : List (String × Binding)} {t u : SymbolTable}
    (distinct : (bindings.map Prod.fst).Nodup)
    (h : bindings.foldlM (fun t (name, b) => do SymbolTable.add t name (← val b)) t = .ok u) :
    u.registry = t.registry ∧ (∀ name ∉ bindings.map Prod.fst, u.value name = t.value name) ∧
      ∀ p ∈ bindings, ∃ v, val p.2 = .ok v ∧ u.value p.1 = .ok v := by
  induction bindings generalizing t with
  | nil => cases h; simp
  | cons p rest ih =>
    obtain ⟨name, b⟩ := p
    rw [List.foldlM_cons] at h
    obtain ⟨t', added, h⟩ := Outcome.bind_eq_ok.1 h
    obtain ⟨v, hv, added⟩ := Outcome.bind_eq_ok.1 added
    rw [List.map_cons, List.nodup_cons] at distinct
    obtain ⟨registry, same, bound⟩ := ih distinct.2 h
    obtain ⟨registry', value, others⟩ := SymbolTable.add_eq_ok added
    refine ⟨registry.trans registry', fun other absent => ?_, fun p mem => ?_⟩
    · rw [List.map_cons, List.mem_cons, not_or] at absent
      rw [same other absent.2, others other absent.1]
    · rcases List.mem_cons.1 mem with rfl | mem
      · exact ⟨v, hv, (same name distinct.1).trans value⟩
      · exact bound p mem

/-- The names of a binder are the variables of its expression, each with what it stands for. -/
theorem bind_eq_ok {e : Expr} {sources : List Source} {args : List Argument} {binder : RowBinder}
    (h : bind e sources args = .ok binder) :
    binder.bindings.map Prod.fst = e.variables ∧
      ∀ p ∈ binder.bindings, resolveVariable p.1 sources args = .ok p.2 := by
  obtain ⟨bindings, found, done⟩ := Outcome.bind_eq_ok.1 h
  cases done
  clear h
  have related := Outcome.mapM_eq_ok.1 found
  clear found
  generalize e.variables = names at related
  induction related with
  | nil => simp
  | @cons name p _ _ hp _ ih =>
    obtain ⟨b, hb, hp⟩ := Outcome.bind_eq_ok.1 hp
    cases hp
    exact ⟨by simp [ih.1], by simpa [hb] using ih.2⟩

/-- The table of an entry describes the rows of the entry. -/
theorem describes_of_table {e : Expr} {context : Context} {sources : List Source} {binder : RowBinder}
    {s : Selection} {k : Nat} {t : SymbolTable} (bound : bind e sources context.args = .ok binder)
    (h : binder.table context sources s k = .ok t) :
    t.Describes context sources (s.rowsAt sources k) e := by
  obtain ⟨names, resolved⟩ := bind_eq_ok bound
  have distinct : (binder.bindings.map Prod.fst).Nodup := names ▸ nodup_distinct _
  obtain ⟨registry, -, values⟩ := foldlM_add distinct h
  refine ⟨registry, fun name mem => ?_⟩
  rw [← names] at mem
  obtain ⟨p, hp, rfl⟩ := List.mem_map.1 mem
  obtain ⟨v, hv, value⟩ := values p hp
  exact ⟨p.2, v, resolved p hp, (valueIn_rowsAt sources s k p.2).trans hv, value⟩

/-- An expression evaluated on the table of an entry has its value over the rows of the entry. -/
theorem yields_iff {e : Expr} {context : Context} {sources : List Source} {binder : RowBinder}
    {s : Selection} {k : Nat} {t : SymbolTable} {v : Value} (bound : bind e sources context.args = .ok binder)
    (h : binder.table context sources s k = .ok t) :
    e.Yields context sources (s.rowsAt sources k) v ↔ e.evaluate t = .ok v := by
  have described := describes_of_table bound h
  constructor
  · rintro ⟨u, hu, hv⟩
    rw [described.evaluate_eq hu, hv]
  · exact fun hv => ⟨t, described, hv⟩

/-- The table of an entry depends on the rows of the entry only. -/
theorem table_congr (binder : RowBinder) (context : Context) (sources : List Source) {s s' : Selection} {k k' : Nat}
    (same : ∀ i, s'.row i k' = s.row i k) : binder.table context sources s' k' = binder.table context sources s k := by
  have values : value sources s' k' = value sources s k := by
    funext b
    cases b with
    | argument v => rfl
    | field source column => simp only [value, same]
  unfold table
  rw [values]

end RowBinder

/-! ## The value at an entry -/

/-- The value of an expression at an entry of a selection. -/
def Expr.valueAt (context : Context) (sources : List Source) (s : Selection) (e : Expr) (k : Nat) :
    Except Error Value := do
  let binder ← RowBinder.bind e sources context.args
  e.evaluate (← binder.table context sources s k)

section

variable {context : Context} {sources : List Source} {s s' : Selection} {e : Expr} {binder : RowBinder} {k k' : Nat}

theorem Expr.valueAt_bound (bound : RowBinder.bind e sources context.args = .ok binder) (k : Nat) :
    e.valueAt context sources s k = binder.table context sources s k >>= e.evaluate := by
  unfold valueAt
  rw [bound, Outcome.ok_bind]

/-- The value at an entry depends on the rows of the entry only. -/
theorem Expr.valueAt_congr (same : ∀ i, s'.row i k' = s.row i k) :
    e.valueAt context sources s' k' = e.valueAt context sources s k := by
  simp only [valueAt, RowBinder.table_congr _ context sources same]

end

end FragmentEngine
