import FragmentEngine.Binary64
/-!
# JSON documents

Documents as trees. Objects keep their members in the order of the text, repeated names included. A document
may hold parts in the right form that have no value; they may be skipped but not read.
-/

namespace FragmentEngine

inductive Json where
  | null
  | bool (b : Bool)
  | int (n : Int)
  | float (x : Binary64)
  | string (s : String)
  | array (items : List Json)
  | object (members : List (String × Json))
  /-- A number too large for a double, or a text with half of a surrogate pair. -/
  | unreadable

namespace Json

/-- The number closest to what JSON can write; a number that is not finite has no literal. -/
def ofBinary64 (x : Binary64) : Json := if x.isNaN || x.isInfinite then .null else .float x

def ofNat (n : Nat) : Json := .int n

def ofOption {α : Type} (f : α → Json) : Option α → Json
  | some a => f a
  | none => .null

end Json

end FragmentEngine
