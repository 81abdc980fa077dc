import FragmentEngine.Json.Fields
import FragmentEngine.Value
/-!
# Values in JSON

A value is an object with one member, named for its kind. Bytes are an array of numbers.
-/

namespace FragmentEngine.Value

def toJson : Value → Json
  | .double x => .object [("Double", Json.ofBinary64 x)]
  | .long n => .object [("Long", .int n.toInt)]
  | .str s => .object [("Str", .string s)]
  | .binary bytes => .object [("Binary", .array (bytes.map fun b => Json.ofNat b.toNat))]

/-- A number below 256. -/
def byte? (j : Json) : Option UInt8 := ((Json.count? j).filter (· < 256)).map UInt8.ofNat

/-- The value that a document stands for. -/
def ofJson? (j : Json) : Option Value :=
  match Json.tagged? j with
  | some ("Double", j) => (Json.double? j).map .double
  | some ("Long", j) => (Json.long? j).map .long
  | some ("Str", j) => (Json.text? j).map .str
  | some ("Binary", j) => (Json.list? byte? j).map .binary
  | _ => none

end FragmentEngine.Value
