/-!
# Arities

How many arguments a function takes.
-/

namespace FragmentEngine

inductive Arity where
  | exactly (n : Nat)
  | atLeast (n : Nat)
  deriving DecidableEq

namespace Arity

def admits : Arity → Nat → Bool
  | .exactly n, given => given == n
  | .atLeast n, given => n ≤ given

def describe : Arity → String
  | .exactly n => toString n
  | .atLeast n => s!"at least {n}"

end Arity

end FragmentEngine
