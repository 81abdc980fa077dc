import FragmentEngine.Decimal.Layout
import FragmentEngine.Decimal.Whole
import FragmentEngine.Json.Quoted
import FragmentEngine.Json.Basic
/-!
# Writing JSON

The text of a document, on one line or with every item on a line of its own.
-/

namespace FragmentEngine.Json

/-- What is written between the parts of a document. -/
structure Spacing where
  /-- Before each item and the end of a container, by depth. -/
  lineBreak : Nat → List Char
  /-- After the colon of a member. -/
  afterColon : List Char

namespace Spacing

/-- Everything on one line, without blanks. -/
def compact : Spacing := ⟨fun _ => [], []⟩

/-- A line for each item, indented by two blanks for each container around it. -/
def indented : Spacing := ⟨fun depth => '\n' :: List.replicate (2 * depth) ' ', [' ']⟩

end Spacing

mutual

/-- The text of a document that stands inside `depth` containers. -/
def write (s : Spacing) (depth : Nat) : Json → List Char
  | .null | .unreadable => ['n', 'u', 'l', 'l']
  | .bool true => ['t', 'r', 'u', 'e']
  | .bool false => ['f', 'a', 'l', 's', 'e']
  | .int n => if n < 0 then '-' :: Decimal.digits n.natAbs else Decimal.digits n.natAbs
  | .float x => Decimal.json.write x
  | .string t => Quoted.write t
  | .array [] => ['[', ']']
  | .array (j :: rest) =>
    '[' :: s.lineBreak (depth + 1) ++ write s (depth + 1) j ++ writeItems s (depth + 1) rest ++
      s.lineBreak depth ++ [']']
  | .object [] => ['\x7b', '\x7d']
  | .object ((name, j) :: rest) =>
    '\x7b' :: s.lineBreak (depth + 1) ++ Quoted.write name ++ ':' :: s.afterColon ++ write s (depth + 1) j ++
      writeMembers s (depth + 1) rest ++ s.lineBreak depth ++ ['\x7d']

/-- The items after the first. -/
def writeItems (s : Spacing) (depth : Nat) : List Json → List Char
  | [] => []
  | j :: rest => ',' :: s.lineBreak depth ++ write s depth j ++ writeItems s depth rest

/-- The members after the first. -/
def writeMembers (s : Spacing) (depth : Nat) : List (String × Json) → List Char
  | [] => []
  | (name, j) :: rest =>
    ',' :: s.lineBreak depth ++ Quoted.write name ++ ':' :: s.afterColon ++ write s depth j ++
      writeMembers s depth rest

end

/-- The document on one line. -/
def compact (j : Json) : String := String.ofList (write Spacing.compact 0 j)

/-- The document with a line for each item. -/
def indented (j : Json) : String := String.ofList (write Spacing.indented 0 j)

end FragmentEngine.Json
