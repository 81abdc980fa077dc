import FragmentEngine.Proofs.Expr.Emission
import FragmentEngine.Proofs.Select.Binding
import FragmentEngine.Proofs.Select.InnerJoin
/-!
# The variables of an expression

The variables of an expression are all the names under which its evaluation looks up a value. A binder gives each of
them one, and the table that it fills has room for them: what it fails for lies in the names, the arguments and the
cells.
-/

namespace FragmentEngine

open Outcome

/-! ## Causes of failure -/

/-- The causes for which a name has no value: it stands for nothing, or what it stands for cannot be read. -/
def Error.isOfBinding : Error → Bool
  | .exec (.fieldNotFound _ _) | .exec (.noInputFor _) | .exec (.ambiguousField _ _) | .exec .noSources
  | .exec (.argumentNull _) | .exec (.argumentMissing _ _) | .exec (.functionRebound _) | .exec (.rowOutOfRange _ _)
  | .exec (.noRecordField _) | .exec (.cellWidth _ _) | .exec (.invalidText _) => true
  | _ => false

/-- A computation fails for causes for which a name has no value. -/
abbrev FailsByBinding {α : Type} (x : Except Error α) : Prop := FailsOnly (·.isOfBinding = true) x

namespace FailsByBinding

open FailsOnly

/-! ### Names -/

theorem column (f : Fragment) (name : String) : FailsByBinding (f.column name) := by
  unfold Fragment.column
  split
  · exact ok _
  · exact error rfl

theorem resolveField (name : String) (sources : List Source) : FailsByBinding (resolveField name sources) := by
  unfold FragmentEngine.resolveField
  split
  · dsimp only
    split
    · exact (column _ _).bind fun _ _ => ok _
    · exact error rfl
  · split
    · exact (column _ _).bind fun _ _ => ok _
    · exact error rfl
    · exact error rfl

theorem valueAt (args : List Argument) (position : Nat) : FailsByBinding (Argument.valueAt args position) := by
  unfold Argument.valueAt
  split
  next a _ =>
    cases a with
    | null => exact error rfl
    | _ => exact ok _
  · exact error rfl

theorem resolveVariable (name : String) (sources : List Source) (args : List Argument) :
    FailsByBinding (resolveVariable name sources args) := by
  unfold FragmentEngine.resolveVariable
  split
  · exact (valueAt _ _).bind fun _ _ => ok _
  · exact (resolveField _ _).bind fun _ _ => ok _

theorem binder (e : Expr) (sources : List Source) (args : List Argument) :
    FailsByBinding (RowBinder.bind e sources args) :=
  (mapM fun _ _ => (resolveVariable _ _ _).bind fun _ _ => ok _).bind fun _ _ => ok _

/-! ### Values -/

theorem decode (type : FieldType) (bytes : Bytes) : FailsByBinding (Cell.decode type bytes) := by
  cases type with
  | long | real =>
    unfold Cell.decode
    dsimp only
    split
    · exact ok _
    · exact error rfl
  | string =>
    unfold Cell.decode
    dsimp only
    split
    · exact ok _
    · exact error rfl
  | blob => exact ok _

theorem cell (r : Record) (i : Nat) : FailsByBinding (r.cell i) := by
  unfold Record.cell
  split
  · exact ok _
  · exact error rfl

theorem value (sources : List Source) (selection : Selection) (k : Nat) (b : Binding) :
    FailsByBinding (RowBinder.value sources selection k b) := by
  have read (f : Fragment) (row column : Nat) : FailsByBinding (f.value row column) := by
    unfold Fragment.value
    split
    · exact error rfl
    · split
      · exact error rfl
      · exact (cell _ _).bind fun bytes _ => decode _ bytes
  cases b with
  | argument v => exact ok v
  | field source column =>
    unfold RowBinder.value
    dsimp only
    split
    · exact read _ _ _
    · exact error rfl

/-! ### Tables -/

/-- There is an error for a full table only if it is full. -/
theorem add {t : SymbolTable} (room : t.size < t.capacity) (name : String) (v : Value) :
    FailsByBinding (t.add name v) := by
  unfold SymbolTable.add
  split
  · exact error rfl
  split
  · exact ok _
  · rw [if_neg (Nat.not_le.2 room)]
    exact ok _

/-- A table with a slot for every variable that is added does not fill up. -/
theorem foldlM_add (val : Binding → Except Error Value) (readable : ∀ b, FailsByBinding (val b)) :
    ∀ (bindings : List (String × Binding)) (t : SymbolTable), t.size + bindings.length ≤ t.capacity →
      FailsByBinding (bindings.foldlM (fun t (name, b) => do SymbolTable.add t name (← val b)) t)
  | [], t, _ => ok t
  | (name, b) :: rest, t, room => by
    rw [List.length_cons] at room
    rw [List.foldlM_cons]
    refine ((readable b).bind fun v _ => add (by omega) name v).bind fun u added => ?_
    obtain ⟨v, -, added⟩ := bind_eq_ok.1 added
    obtain ⟨grown, same⟩ := SymbolTable.size_of_add added
    exact foldlM_add val readable rest u (by omega)

theorem table (binder : RowBinder) (context : Context) (sources : List Source) (selection : Selection) (k : Nat) :
    FailsByBinding (binder.table context sources selection k) := by
  refine foldlM_add _ (value sources selection k) binder.bindings _ ?_
  simp only [SymbolTable.new, SymbolTable.size, List.length_nil]
  omega

end FailsByBinding

/-! ## Lookups -/

/-- Where every variable has a value, a symbol that is not known is a function that is not registered, unless a
registered function says so. -/
theorem Expr.unknownSymbol_of_valued {e : Expr} {t : SymbolTable} {last : Bool} {accumulators : List Accumulator}
    {name : String} (valued : ∀ name ∈ e.variables, ∃ v, t.value name = .ok v)
    (h : (e.evalRow t last accumulators).1 = .error (.exec (.unknownSymbol name))) :
    (name ∈ e.functionNames ∧ t.registry.find? name = none) ∨
      t.registry ≠ .builtin ∧ t.registry.RefusesWith (.exec (.unknownSymbol name)) := by
  cases arises_of_fails e h with
  | values ofValues => cases ofValues
  | noVariable other mem missing =>
    obtain ⟨v, value⟩ := valued other (mem_distinct.2 mem)
    cases value.symm.trans missing
  | noFunction other mem missing =>
    obtain ⟨unregistered, same⟩ := SymbolTable.function_eq_error.1 missing
    cases same
    exact .inl ⟨mem, unregistered⟩
  | refused refuses =>
    refine .inr ⟨fun builtin => ?_, refuses⟩
    rw [builtin] at refuses
    cases Registry.ofValues_of_builtin refuses
  | nested _ isNested =>
    obtain ⟨f, same⟩ := isNested
    cases same

/-- Evaluation depends on the functions and on the values of the variables of its expression, in its value as in the
cause of its failure. The table that a binder makes has a value for each of these variables, so that a symbol not known
is a function, and it is never full. -/
theorem Expr.evaluates_by_variables (e : Expr) :
    (∀ t u : SymbolTable, t.registry = u.registry → (∀ name ∈ e.variables, t.value name = u.value name) →
      e.evaluate t = e.evaluate u ∧
      ∀ last accumulators, e.evalRow t last accumulators = e.evalRow u last accumulators) ∧
    ∀ (context : Context) (sources : List Source) (binder : RowBinder),
      RowBinder.bind e sources context.args = .ok binder → ∀ selection k,
      (∀ capacity, binder.table context sources selection k ≠ .error (.exec (.symbolTableFull capacity))) ∧
      ∀ t, binder.table context sources selection k = .ok t →
        (∀ name ∈ e.variables, ∃ v, t.value name = .ok v) ∧
        ∀ name, (e.evaluate t = .error (.exec (.unknownSymbol name)) ∨
            ∃ last accumulators, (e.evalRow t last accumulators).1 = .error (.exec (.unknownSymbol name))) →
          (name ∈ e.functionNames ∧ context.registry.find? name = none) ∨
            context.registry ≠ .builtin ∧ context.registry.RefusesWith (.exec (.unknownSymbol name)) := by
  refine ⟨fun t u registry value => ?_, fun context sources binder bound selection k => ⟨fun capacity full => ?_, ?_⟩⟩
  · have agrees : t.Agrees e.variables u := ⟨registry, value⟩
    exact ⟨evaluate_congr agrees, evalRow_congr agrees⟩
  · cases FailsByBinding.table binder context sources selection k _ full
  · intro t made
    obtain ⟨registry, described⟩ := RowBinder.describes_of_table bound made
    have valued : ∀ name ∈ e.variables, ∃ v, t.value name = .ok v := fun name mem => by
      obtain ⟨-, v, -, -, value⟩ := described name mem
      exact ⟨v, value⟩
    refine ⟨valued, fun name unknown => ?_⟩
    rw [← registry]
    rcases unknown with alone | ⟨last, accumulators, row⟩
    · refine unknownSymbol_of_valued valued (?_ : (e.evalRow t true []).1 = _)
      rw [evalRow_alone, alone]
      rfl
    · exact unknownSymbol_of_valued valued row

/-- A name of a column that is called as a function, too: the column has its value, and the function is not known. More
room and another variable make no difference. -/
theorem Expr.evaluates_by_variables_sharedName :
    let e : Expr := .binary (.variable "id") .add (.call "id" [])
    let context : Context := ⟨.builtin, [], 0⟩
    let sources := [Selection.counting "a" 1 3]
    let t : SymbolTable := ⟨.builtin, [("id", .long 2)], 11⟩
    let u : SymbolTable := ⟨.builtin, [("w", .str "w"), ("id", .long 2)], 20⟩
    (∃ binder, RowBinder.bind e sources context.args = .ok binder ∧
      binder.table context sources (.full 3) 1 = .ok t ∧
      ∀ capacity, binder.table context sources (.full 3) 1 ≠ .error (.exec (.symbolTableFull capacity))) ∧
    e.evaluate t = .error (.exec (.unknownSymbol "id")) ∧ e.evaluate u = .error (.exec (.unknownSymbol "id")) ∧
    (∃ v, t.value "id" = .ok v) ∧ "id" ∈ e.functionNames ∧ Registry.builtin.find? "id" = none := by
  intro e context sources t u
  have bound : RowBinder.bind e sources context.args = .ok ⟨[("id", .field 0 0)]⟩ := by decide +kernel
  have made : (⟨[("id", .field 0 0)]⟩ : RowBinder).table context sources (.full 3) 1 = .ok t := rfl
  have unknown : e.evaluate t = .error (.exec (.unknownSymbol "id")) := by decide +kernel
  obtain ⟨congr, tables⟩ := evaluates_by_variables e
  have same := (congr t u rfl (by decide +kernel)).1
  obtain ⟨room, filled⟩ := tables context sources _ bound (.full 3) 1
  obtain ⟨valued, blamed⟩ := filled t made
  rcases blamed "id" (.inl unknown) with ⟨called, unregistered⟩ | ⟨other, -⟩
  · exact ⟨⟨_, bound, made, room⟩, unknown, same.symm.trans unknown, valued "id" (by decide), called, unregistered⟩
  · exact absurd rfl other

end FragmentEngine
