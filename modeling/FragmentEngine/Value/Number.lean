import FragmentEngine.Error
import FragmentEngine.Value
/-!
# Values as numbers

Reading a value as a double or a long for an operator, a function or a column. Longs become the nearest double,
doubles lose their fraction and are clamped; strings and bytes are refused.
-/

namespace FragmentEngine.Value

/-- The refusal of a value that is not a number. -/
def notNumeric (context : String) (v : Value) : Error := .exec (.argumentType context v.kindName)

/-- The value as a double. -/
def toDouble (context : String) : Value → Except Error Binary64
  | .double x => .ok x
  | .long n => .ok (Binary64.ofInt n.toInt)
  | v => .error (notNumeric context v)

/-- The value as a long. -/
def toLong (context : String) : Value → Except Error Long
  | .double x => .ok x.toLong
  | .long n => .ok n
  | v => .error (notNumeric context v)

/-- Whether the value is a number other than zero; a NaN is. -/
def isTruthy (context : String) (v : Value) : Except Error Bool :=
  (v.toDouble context).map fun x => !x.isZero

theorem toDouble_isOk_iff (context : String) (v : Value) :
    (v.toDouble context).isOk = v.isNumeric := by
  cases v <;> rfl

end FragmentEngine.Value
