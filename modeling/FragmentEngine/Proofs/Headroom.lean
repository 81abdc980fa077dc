import FragmentEngine.Engine.Session
import FragmentEngine.Proofs.Select.BoundVariables
import FragmentEngine.Proofs.Select.GroupedColumn
/-!
# Headroom

The headroom of a context makes every symbol table larger, and nothing else. A table has a slot for each variable that
is added to it without any headroom, so that no variable is ever refused for want of a slot, and an evaluation does not
look at the slots that are left. Hence selects and inserts give the same with any headroom, and so does every query.
-/

namespace FragmentEngine

/-! ## Capacities -/

namespace SymbolTable

/-- The table with another number of slots. -/
def withCapacity (t : SymbolTable) (n : Nat) : SymbolTable := { t with capacity := n }

@[simp] theorem size_withCapacity (t : SymbolTable) (n : Nat) : (t.withCapacity n).size = t.size := rfl

theorem agrees_withCapacity (names : List String) (t : SymbolTable) (n : Nat) : Agrees names (t.withCapacity n) t :=
  ⟨rfl, fun _ _ => rfl⟩

/-- As long as there is a free slot, their number does not matter. -/
theorem add_withCapacity {t : SymbolTable} {n : Nat} (room : t.size < t.capacity) (room' : t.size < n) (name : String)
    (v : Value) : (t.withCapacity n).add name v = (t.add name v).map (·.withCapacity n) := by
  have free : ¬t.capacity ≤ t.size := Nat.not_le.2 room
  have free' : ¬n ≤ t.size := Nat.not_le.2 room'
  show (if (t.registry.find? name).isSome then _ else if (t.bound.lookup name).isSome then _
    else if n ≤ t.size then _ else _) = _
  unfold add
  rw [if_neg free, if_neg free']
  split
  · rfl
  · split <;> rfl

/-- Variables for which there is room are added alike to tables of different capacities. -/
theorem foldlM_withCapacity (val : Binding → Except Error Value) {n : Nat} :
    ∀ (bindings : List (String × Binding)) (t : SymbolTable), t.size + bindings.length ≤ t.capacity →
      t.size + bindings.length ≤ n →
      bindings.foldlM (fun t (name, b) => do SymbolTable.add t name (← val b)) (t.withCapacity n) =
        (bindings.foldlM (fun t (name, b) => do SymbolTable.add t name (← val b)) t).map (withCapacity · n)
  | [], _, _, _ => rfl
  | (name, b) :: rest, t, room, room' => by
    rw [List.length_cons] at room room'
    rw [List.foldlM_cons, List.foldlM_cons]
    dsimp only
    cases value : val b with
    | error _ => rfl
    | ok v =>
      rw [Outcome.ok_bind, Outcome.ok_bind, add_withCapacity (by omega) (by omega)]
      cases added : t.add name v with
      | error _ => rfl
      | ok u =>
        obtain ⟨grown, same⟩ := size_of_add added
        exact foldlM_withCapacity val rest u (by omega) (by omega)

end SymbolTable

namespace Expr

theorem evalRow_withCapacity (e : Expr) (t : SymbolTable) (n : Nat) :
    e.evalRow (t.withCapacity n) = e.evalRow t := by
  funext last accumulators
  exact evalRow_congr (t.agrees_withCapacity e.variables n) last accumulators

theorem evaluate_withCapacity (e : Expr) (t : SymbolTable) (n : Nat) : e.evaluate (t.withCapacity n) = e.evaluate t :=
  evaluate_congr (t.agrees_withCapacity e.variables n)

end Expr

/-! ## Contexts -/

/-- The context with another headroom. -/
def Context.withHeadroom (c : Context) (n : Nat) : Context := { c with headroom := n }

@[simp] theorem Context.registry_withHeadroom (c : Context) (n : Nat) : (c.withHeadroom n).registry = c.registry := rfl

@[simp] theorem Context.args_withHeadroom (c : Context) (n : Nat) : (c.withHeadroom n).args = c.args := rfl

variable (context : Context) (n : Nat) (sources : List Source)

/-- The table of an entry has other slots with another headroom, and is the same in all else. -/
theorem RowBinder.table_withHeadroom (binder : RowBinder) (selection : Selection) (k : Nat) :
    binder.table (context.withHeadroom n) sources selection k =
      (binder.table context sources selection k).map
        (·.withCapacity (context.registry.size + (binder.bindings.length + n))) := by
  let t : SymbolTable := .new context.registry (binder.bindings.length + context.headroom)
  have occupied : t.size = context.registry.size := rfl
  refine SymbolTable.foldlM_withCapacity (value sources selection k) binder.bindings t ?_ ?_
  · show t.size + _ ≤ context.registry.size + (binder.bindings.length + context.headroom)
    omega
  · show t.size + _ ≤ context.registry.size + (binder.bindings.length + n)
    omega

/-- What does not look at the slots of the table of an entry does not depend on the headroom. -/
theorem RowBinder.table_bind_withHeadroom {β : Type} (binder : RowBinder) (selection : Selection) (k : Nat)
    {f : SymbolTable → Except Error β} (blind : ∀ t capacity, f (t.withCapacity capacity) = f t) :
    (binder.table (context.withHeadroom n) sources selection k >>= f) =
      (binder.table context sources selection k >>= f) := by
  rw [table_withHeadroom]
  cases binder.table context sources selection k with
  | error _ => rfl
  | ok t => exact blind t _

/-! ## Selects -/

namespace Selection

theorem admits_withHeadroom (binder : RowBinder) (e : Expr) (c : Selection) (k : Nat) :
    admits (context.withHeadroom n) sources binder e c k = admits context sources binder e c k := by
  refine RowBinder.table_bind_withHeadroom context n sources binder c k fun t capacity => ?_
  rw [Expr.evaluate_withCapacity]

theorem filter_withHeadroom (condition : Option Expr) :
    filter (context.withHeadroom n) sources condition = filter context sources condition := by
  unfold filter
  simp only [Context.registry_withHeadroom, Context.args_withHeadroom, admits_withHeadroom]

end Selection

namespace Group

theorem keyOf_withHeadroom (selection : Selection) (binder : RowBinder) (e : Expr) (k : Nat) :
    keyOf (context.withHeadroom n) sources selection binder e k = keyOf context sources selection binder e k := by
  refine RowBinder.table_bind_withHeadroom context n sources binder selection k fun t capacity => ?_
  rw [Expr.evaluate_withCapacity]

theorem ofSelection_withHeadroom (selection : Selection) (e : Expr) :
    ofSelection (context.withHeadroom n) sources selection e = ofSelection context sources selection e := by
  unfold ofSelection
  simp only [Context.registry_withHeadroom, Context.args_withHeadroom, keyOf_withHeadroom]

end Group

namespace Projection

theorem visit_withHeadroom (selection : Selection) (binder : RowBinder) :
    visit (context.withHeadroom n) sources selection binder = visit context sources selection binder := by
  funext v g
  show (visit (context.withHeadroom n) sources selection binder v).run g =
    (visit context sources selection binder v).run g
  rw [visit_eq, visit_eq]
  refine RowBinder.table_bind_withHeadroom context n sources binder selection v.entry fun t capacity => ?_
  rw [Expr.evalRow_withCapacity]

theorem exprColumn_withHeadroom (selection : Selection) (groups : Option (List Group)) (keyed : Bool) (name : String)
    (e : Expr) : exprColumn (context.withHeadroom n) sources selection groups keyed name e =
      exprColumn context sources selection groups keyed name e := by
  unfold exprColumn
  simp only [Context.registry_withHeadroom, Context.args_withHeadroom, visit_withHeadroom]

theorem column_withHeadroom (p : Projection) (selection : Selection) (groups : Option (List Group)) (expected : Nat)
    (text : String) : p.column (context.withHeadroom n) sources selection groups expected text =
      p.column context sources selection groups expected text := by
  have shown : Column.ofExpr (context.withHeadroom n) sources = Column.ofExpr context sources := by
    funext e
    cases e <;> rfl
  unfold column
  simp only [shown, exprColumn_withHeadroom]

theorem project_withHeadroom (p : Projection) (selection : Selection) (groups : Option (List Group)) :
    p.project (context.withHeadroom n) sources selection groups = p.project context sources selection groups := by
  unfold project addColumn
  simp only [column_withHeadroom]

end Projection

namespace SelectRequest

theorem selection_withHeadroom (r : SelectRequest) (condition : Option Expr) :
    r.selection (context.withHeadroom n) sources condition = r.selection context sources condition := by
  unfold selection
  rw [Selection.filter_withHeadroom]

theorem execute_withHeadroom (r : SelectRequest) :
    r.execute (context.withHeadroom n) sources = r.execute context sources := by
  have grouped (s : Selection) : Group.ofSelection (context.withHeadroom n) sources s =
      Group.ofSelection context sources s := funext (Group.ofSelection_withHeadroom context n sources s)
  unfold execute
  simp only [selection_withHeadroom, grouped, Projection.project_withHeadroom]

end SelectRequest

/-! ## Inserts -/

namespace Insert

theorem valueOf_withHeadroom (type : FieldType) (text : String) :
    valueOf (context.withHeadroom n) type text = valueOf context type text := by
  have same (e : Expr) : e.evaluate (.new context.registry n) = e.evaluate (.new context.registry context.headroom) :=
    e.evaluate_withCapacity (.new context.registry context.headroom) (context.registry.size + n)
  unfold valueOf Context.withHeadroom
  simp only [same]

theorem encodeRow_withHeadroom (schema : Schema) :
    encodeRow (context.withHeadroom n) schema = encodeRow context schema := by
  funext values
  unfold encodeRow
  simp only [valueOf_withHeadroom]

theorem record_withHeadroom (schema : Schema) (names values : List String) :
    record (context.withHeadroom n) schema names values = record context schema names values := by
  unfold record
  rw [encodeRow_withHeadroom]

theorem records_withHeadroom (schema : Schema) (names values : List String) :
    records (context.withHeadroom n) schema names values = records context schema names values := by
  unfold records
  rw [encodeRow_withHeadroom]

end Insert

/-! ## Queries -/

/-- The engine with another headroom. -/
def Engine.withHeadroom (e : Engine) (n : Nat) : Engine := { e with headroom := n }

/-- The request of an engine with another headroom. -/
def Request.withHeadroom (r : Request) (n : Nat) : Request := { r with engine := r.engine.withHeadroom n }

namespace Request

theorem insertedRecords_withHeadroom (r : Request) (several : Bool) (schema : Schema) :
    (r.withHeadroom n).insertedRecords several schema = r.insertedRecords several schema := by
  have one := Insert.record_withHeadroom (r.engine.context r.args) n schema
  have many := Insert.records_withHeadroom (r.engine.context r.args) n schema
  show (r.params.list "field" >>= fun names => r.params.requireList "value" >>= fun values =>
    if several then Insert.records ((r.engine.context r.args).withHeadroom n) schema names values
    else Insert.record ((r.engine.context r.args).withHeadroom n) schema names values >>= fun a => pure [a]) = _
  simp only [one, many]
  rfl

/-- An operation makes the same calls and ends the same way. -/
theorem perform_withHeadroom (r : Request) (statement : Option Statement) (op : Operation) :
    (r.withHeadroom n).perform statement op = r.perform statement op := by
  have executes (q : SelectRequest) (sources : List Source) :
      q.execute ((r.withHeadroom n).engine.context (r.withHeadroom n).args) sources =
        q.execute (r.engine.context r.args) sources := q.execute_withHeadroom (r.engine.context r.args) n sources
  cases op with
  | insert | multiInsert =>
    show (r.withHeadroom n).insert _ statement = r.insert _ statement
    unfold insert
    simp only [insertedRecords_withHeadroom]
    rfl
  | select =>
    unfold perform select
    simp only [executes]
    rfl
  | createFromSelect =>
    unfold perform createFromSelect
    simp only [executes]
    rfl
  | _ => rfl

end Request

/-- No headroom makes a difference: not to a select, whatever its sources, arguments and functions are, in the fragment
it makes as in the cause of its failure; not to the records of an insert; and not to a query of an engine, which makes
the same calls and gives the same result. -/
theorem outcome_ignores_headroom (context : Context) (m n : Nat) :
    (∀ (r : SelectRequest) (sources : List Source),
      r.execute (context.withHeadroom m) sources = r.execute (context.withHeadroom n) sources) ∧
    (∀ (schema : Schema) (names values : List String),
      Insert.record (context.withHeadroom m) schema names values =
        Insert.record (context.withHeadroom n) schema names values ∧
      Insert.records (context.withHeadroom m) schema names values =
        Insert.records (context.withHeadroom n) schema names values) ∧
    ∀ (r : Request) (statement : Option Statement) (op : Operation),
      (r.withHeadroom m).perform statement op = (r.withHeadroom n).perform statement op := by
  refine ⟨fun r sources => ?_, fun schema names values => ⟨?_, ?_⟩, fun r statement op => ?_⟩
  · rw [SelectRequest.execute_withHeadroom, SelectRequest.execute_withHeadroom]
  · rw [Insert.record_withHeadroom, Insert.record_withHeadroom]
  · rw [Insert.records_withHeadroom, Insert.records_withHeadroom]
  · rw [Request.perform_withHeadroom, Request.perform_withHeadroom]

end FragmentEngine
