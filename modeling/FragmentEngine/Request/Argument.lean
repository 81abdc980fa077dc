import FragmentEngine.Decimal.Numeral
import FragmentEngine.Request.Sections
import FragmentEngine.Text.Lowercase
import FragmentEngine.Value
/-!
# Positional arguments

Typed values that travel beside a query and are referred to as `?1`, `?2` and so on. As text they are a list of
entries `type:payload`, or the word `null`.
-/

namespace FragmentEngine

inductive Argument where
  | long (n : Long)
  | double (x : Binary64)
  | varchar (s : String)
  | blob (bytes : Bytes)
  | null
  deriving DecidableEq

namespace Argument

/-- The value of the argument at a position; null has none. -/
def toValue (position : Nat) : Argument → Except Error Value
  | .long n => .ok (.long n)
  | .double x => .ok (.double x)
  | .varchar s => .ok (.str s)
  | .blob bytes => .ok (.binary bytes)
  | .null => .error (.exec (.argumentNull position))

/-- Reads one entry. -/
def read (item : String) : Except Error Argument :=
  if item.toList.map Char.toLower = ['n', 'u', 'l', 'l'] then .ok .null
  else match Text.splitOnce ':' item.toList with
    | none => .error (.parse (.untypedArgument item))
    | some (type, payload) =>
      let invalid := Error.parse (.invalidArgument (String.ofList type) (String.ofList payload))
      let orInvalid : Option Argument → Except Error Argument
        | some a => .ok a
        | none => .error invalid
      let word := String.ofList (Text.lowercase (Text.trim type))
      if word = "long" then orInvalid ((Decimal.long? (Text.trim payload)).map .long)
      else if word = "double" then orInvalid ((Decimal.double? (Text.trim payload)).map .double)
      else if word = "varchar" then .ok (.varchar (String.ofList (Sections.unquote payload)))
      else if word = "blob" then orInvalid ((Bytes.ofHex? (Text.trim payload)).map .blob)
      else .error (.parse (.unknownArgumentType word))

/-- Reads a list of entries; a blank text is the empty list. -/
def readList (text : String) : Except Error (List Argument) :=
  if (Text.trim text.toList).isEmpty then .ok []
  else do (← Sections.list text).mapM read

/-- The position that a placeholder such as `?2` refers to. -/
def placeholder? (name : List Char) : Option Nat :=
  match name with
  | '?' :: rest => (Decimal.count? rest).filter (0 < ·)
  | _ => none

/-- The value of the argument at a position, counted from 1. -/
def valueAt (args : List Argument) (position : Nat) : Except Error Value :=
  match args[position - 1]? with
  | some a => a.toValue position
  | none => .error (.exec (.argumentMissing position args.length))

end Argument

end FragmentEngine
