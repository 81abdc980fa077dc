import FragmentEngine.Decimal.Layout
import FragmentEngine.Fragment.FieldType
/-!
# Values

What an expression evaluates to and what a cell decodes to. Equality is by kind and content; doubles are equal
when their bits are.
-/

namespace FragmentEngine

inductive Value where
  | double (x : Binary64)
  | long (n : Long)
  | str (s : String)
  | binary (bytes : Bytes)
  deriving DecidableEq

namespace Value

/-- The long 1 or 0. -/
def ofBool (b : Bool) : Value := .long (if b then 1 else 0)

/-- The kind of a value as error messages name it. -/
def kindName : Value → String
  | .double _ => "DOUBLE"
  | .long _ => "LONG"
  | .str _ => "STRING"
  | .binary _ => "BINARY"

/-- The field type that holds values of this kind. -/
def fieldType : Value → FieldType
  | .double _ => .real
  | .long _ => .long
  | .str _ => .string
  | .binary _ => .blob

def isNumeric : Value → Bool
  | .double _ | .long _ => true
  | .str _ | .binary _ => false

/-- The text of a string value. -/
def text? : Value → Option String
  | .str s => some s
  | _ => none

/-- The value as shown in a table; bytes show their count only. -/
def display : Value → String
  | .double x => Decimal.display x
  | .long n => toString n.toInt
  | .str s => s
  | .binary bytes => s!"BINARY[{bytes.length}]"

theorem isNumeric_eq (v : Value) : v.isNumeric = v.fieldType.isNumeric := by cases v <;> rfl

end Value

end FragmentEngine
