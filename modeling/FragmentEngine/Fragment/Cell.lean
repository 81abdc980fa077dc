import FragmentEngine.Value.Number
/-!
# Cells

The bytes of a value in a column of a given type: eight little-endian bytes for LONG and REAL, text closed by
a NUL for STRING, the bytes themselves for BLOB. Numbers are converted between LONG and REAL, and eight raw
bytes are taken for either.
-/

namespace FragmentEngine.Cell

/-- The bytes of a value in a column of type `type`. -/
def encode (type : FieldType) (v : Value) : Except Error Bytes :=
  match type, v with
  | .long, .long n => .ok n.toBytes
  | .long, .double x => .ok x.toLong.toBytes
  | .real, .double x => .ok x.toBytes
  | .real, .long n => .ok (Binary64.ofInt n.toInt).toBytes
  | .string, .str s => .ok (Text.Utf8.encode s ++ [0])
  | .blob, .binary bytes => .ok bytes
  | .blob, .str s => .ok (Text.Utf8.encode s)
  | type, .binary bytes =>
    if type.isNumeric ∧ bytes.length = 8 then .ok bytes
    else .error (.exec (.typeMismatch v.kindName type))
  | type, v => .error (.exec (.typeMismatch v.kindName type))

/-- The text without the NUL that closes it. -/
def dropNul (bytes : Bytes) : Bytes := if bytes.getLast? = some 0 then bytes.dropLast else bytes

/-- The value of the bytes in a column of type `type`. -/
def decode (type : FieldType) (bytes : Bytes) : Except Error Value :=
  match type with
  | .long =>
    if bytes.length = 8 then .ok (.long (Long.ofBytes bytes))
    else .error (.exec (.cellWidth .long bytes.length))
  | .real =>
    if bytes.length = 8 then .ok (.double (Binary64.ofBytes bytes))
    else .error (.exec (.cellWidth .real bytes.length))
  | .string =>
    match Text.Utf8.decode (dropNul bytes) with
    | .ok s => .ok (.str s)
    | .error e => .error (.exec (.invalidText e))
  | .blob => .ok (.binary bytes)

end FragmentEngine.Cell
