import FragmentEngine.Value
/-!
# Expressions

The expression tree, its operators, and the names that occur in it. Trees are equal when their values are
equal in kind and bits.
-/

namespace FragmentEngine

inductive BinaryOp where
  | mul
  | div
  | add
  | sub
  | mod
  | eq
  | ne
  | lt
  | gt
  | le
  | ge
  | and
  | or
  deriving DecidableEq

namespace BinaryOp

def symbol : BinaryOp → String
  | .mul => "*"
  | .div => "/"
  | .add => "+"
  | .sub => "-"
  | .mod => "MOD"
  | .eq => "="
  | .ne => "<>"
  | .lt => "<"
  | .gt => ">"
  | .le => "<="
  | .ge => ">="
  | .and => "AND"
  | .or => "OR"

/-- The operators whose result is a double. -/
def isArithmetic : BinaryOp → Bool
  | .mul | .div | .add | .sub => true
  | _ => false

def isComparison : BinaryOp → Bool
  | .eq | .ne | .lt | .gt | .le | .ge => true
  | _ => false

def all : List BinaryOp := [.mul, .div, .add, .sub, .mod, .eq, .ne, .lt, .gt, .le, .ge, .and, .or]

theorem mem_all (op : BinaryOp) : op ∈ all := by cases op <;> decide

end BinaryOp

inductive UnaryOp where
  | not
  | neg
  deriving DecidableEq

def UnaryOp.symbol : UnaryOp → String
  | .not => "NOT"
  | .neg => "-"

inductive Expr where
  | literal (v : Value)
  /-- A field, or a positional argument if the name starts with a question mark. -/
  | variable (name : String)
  | call (function : String) (args : List Expr)
  | binary (left : Expr) (op : BinaryOp) (right : Expr)
  | unary (op : UnaryOp) (operand : Expr)

namespace Expr

/-! ## Equality -/

mutual

/-- Whether two trees are equal. -/
def same : Expr → Expr → Bool
  | .literal v, .literal w => v == w
  | .variable x, .variable y => x == y
  | .call f xs, .call g ys => f == g && sameAll xs ys
  | .binary a o b, .binary c p d => same a c && o == p && same b d
  | .unary o a, .unary p b => o == p && same a b
  | _, _ => false

/-- Whether two lists of trees are equal. -/
def sameAll : List Expr → List Expr → Bool
  | [], [] => true
  | x :: xs, y :: ys => same x y && sameAll xs ys
  | _, _ => false

end

mutual

theorem same_iff : ∀ a b : Expr, same a b = true ↔ a = b
  | .literal v, b => by cases b <;> simp [same]
  | .variable x, b => by cases b <;> simp [same]
  | .call f xs, b => by
    cases b with
    | call g ys => simp [same, sameAll_iff xs ys]
    | _ => simp [same]
  | .binary l o r, b => by
    cases b with
    | binary l' o' r' => simp [same, same_iff l l', same_iff r r', and_assoc]
    | _ => simp [same]
  | .unary o a, b => by
    cases b with
    | unary o' a' => simp [same, same_iff a a']
    | _ => simp [same]

theorem sameAll_iff : ∀ xs ys : List Expr, sameAll xs ys = true ↔ xs = ys
  | [], ys => by cases ys <;> simp [sameAll]
  | x :: xs, ys => by
    cases ys with
    | nil => simp [sameAll]
    | cons y ys => simp [sameAll, same_iff x y, sameAll_iff xs ys]

end

instance : DecidableEq Expr := fun a b => decidable_of_iff (same a b = true) (same_iff a b)

/-! ## Names -/

mutual

/-- The variables of a tree from left to right, as often as they occur. -/
def variableNames : Expr → List String
  | .literal _ => []
  | .variable name => [name]
  | .call _ args => variableNamesAll args
  | .binary left _ right => variableNames left ++ variableNames right
  | .unary _ operand => variableNames operand

def variableNamesAll : List Expr → List String
  | [] => []
  | e :: rest => variableNames e ++ variableNamesAll rest

end

mutual

/-- The functions called in a tree, each before those in its arguments. -/
def functionNames : Expr → List String
  | .literal _ | .variable _ => []
  | .call function args => function :: functionNamesAll args
  | .binary left _ right => functionNames left ++ functionNames right
  | .unary _ operand => functionNames operand

def functionNamesAll : List Expr → List String
  | [] => []
  | e :: rest => functionNames e ++ functionNamesAll rest

end

end Expr

/-- The members of a list at their first occurrence. -/
def distinct : List String → List String
  | [] => []
  | x :: rest => x :: (distinct rest).filter (· != x)

theorem mem_distinct {x : String} {xs : List String} : x ∈ distinct xs ↔ x ∈ xs := by
  induction xs with
  | nil => simp [distinct]
  | cons y rest ih => by_cases h : x = y <;> simp [distinct, ih, h]

theorem nodup_distinct (xs : List String) : (distinct xs).Nodup := by
  induction xs with
  | nil => simp [distinct]
  | cons y rest ih =>
    refine List.nodup_cons.2 ⟨by simp, ?_⟩
    exact List.Pairwise.filter _ ih

/-- The variables of a tree in the order of their first occurrence. -/
def Expr.variables (e : Expr) : List String := distinct e.variableNames

end FragmentEngine
