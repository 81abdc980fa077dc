import Std.Data.ExtTreeMap
import FragmentEngine.Json.Basic
import FragmentEngine.Long
/-!
# Typed parts of JSON documents

Reading a document as a value of a known type. A record is an object in which every field occurs at most once
and other members are skipped, or an array of all fields in order.
-/

namespace FragmentEngine.Json

def text? : Json → Option String
  | .string s => some s
  | _ => none

def flag? : Json → Option Bool
  | .bool b => some b
  | _ => none

/-- A count of at most 64 bits. -/
def count? : Json → Option Nat
  | .int n => if 0 ≤ n ∧ n < Nat.pow 2 64 then some n.toNat else none
  | _ => none

def long? : Json → Option Long
  | .int n => Long.ofInt? n
  | _ => none

/-- A double, which may be written as a whole number. -/
def double? : Json → Option Binary64
  | .int n => some (Binary64.ofInt n)
  | .float x => some x
  | _ => none

/-- A value that may be null or left out. -/
def optional? {α : Type} (read : Json → Option α) : Option Json → Option (Option α)
  | none | some .null => some none
  | some j => (read j).map some

def list? {α : Type} (read : Json → Option α) : Json → Option (List α)
  | .array items => items.mapM read
  | _ => none

/-- A map from names; the last of several members of one name counts. -/
def map? {α : Type} (read : Json → Option α) : Json → Option (Std.ExtTreeMap String α compare)
  | .object members => members.foldlM (fun m (name, j) => (read j).map (m.insert name ·)) ∅
  | _ => none

/-- The fields of a record in the order of their names; in an object some may be left out. -/
def fields? (names : List String) : Json → Option (List (Option Json))
  | .array items => if items.length = names.length then some (items.map some) else none
  | .object members =>
    if names.all fun name => (members.map Prod.fst).count name ≤ 1 then
      some (names.map fun name => members.lookup name)
    else none
  | _ => none

/-- The only member of an object. -/
def tagged? : Json → Option (String × Json)
  | .object [member] => some member
  | _ => none

/-- A map as an object. -/
def ofMap {α : Type} (write : α → Json) (m : Std.ExtTreeMap String α compare) : Json :=
  .object (m.toList.map fun (name, a) => (name, write a))

end FragmentEngine.Json
