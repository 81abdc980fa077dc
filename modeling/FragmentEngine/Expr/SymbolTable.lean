import FragmentEngine.Expr.Basic
import FragmentEngine.Function.Registry
/-!
# Symbol tables

The names an expression may use: every registered function, and variables in a number of further slots that
is fixed when the table is made. A name stands for a function or for a variable, never for both.
-/

namespace FragmentEngine

structure SymbolTable where
  registry : Registry
  /-- The values of the variables, in the order they were added. -/
  bound : List (String × Value)
  /-- The number of slots, functions included. -/
  capacity : Nat

namespace SymbolTable

/-- A table of all functions and `additional` free slots. -/
def new (registry : Registry) (additional : Nat) : SymbolTable :=
  ⟨registry, [], registry.size + additional⟩

/-- The number of occupied slots. -/
def size (t : SymbolTable) : Nat := t.registry.size + t.bound.length

def isEmpty (t : SymbolTable) : Bool := t.size == 0

/-- The bindings with the value of one name replaced. -/
def rebind (name : String) (value : Value) (bindings : List (String × Value)) : List (String × Value) :=
  bindings.map fun (n, v) => if n = name then (n, value) else (n, v)

/-- Adds a variable or gives it a new value. -/
def add (t : SymbolTable) (name : String) (value : Value) : Except Error SymbolTable :=
  if (t.registry.find? name).isSome then .error (.exec (.functionRebound name))
  else if (t.bound.lookup name).isSome then
    .ok { t with bound := rebind name value t.bound }
  else if t.capacity ≤ t.size then .error (.exec (.symbolTableFull t.capacity))
  else .ok { t with bound := t.bound ++ [(name, value)] }

/-- The value of a variable. -/
def value (t : SymbolTable) (name : String) : Except Error Value :=
  match t.bound.lookup name with
  | some v => .ok v
  | none => .error (.exec (.unknownSymbol name))

/-- The function of a name. -/
def function (t : SymbolTable) (name : String) : Except Error Function :=
  match t.registry.find? name with
  | some f => .ok f
  | none => .error (.exec (.unknownSymbol name))

end SymbolTable

end FragmentEngine
