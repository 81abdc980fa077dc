import FragmentEngine.Error
/-!
# Schemas

The columns of a fragment in order. A name that occurs twice stands for its last column. The identifier column
is the flagged one, or the first LONG column if none is flagged.
-/

namespace FragmentEngine

structure Field where
  name : String
  type : FieldType
  /-- Whether this is the identifier column. -/
  identifier : Bool
  deriving DecidableEq

/-- The type that a text names, in any case and with blanks around it. -/
def FieldType.read (text : String) : Except Error FieldType :=
  let word := String.ofList (Text.lowercase (Text.trim text.toList))
  match FieldType.named? word with
  | some t => .ok t
  | none => .error (.parse (.unknownFieldType word))

structure Schema where
  fields : List Field
  deriving DecidableEq

namespace Schema

def width (s : Schema) : Nat := s.fields.length

def names (s : Schema) : List String := s.fields.map Field.name

def types (s : Schema) : List FieldType := s.fields.map Field.type

/-- The last position of `x`. -/
def lastIndex (x : String) : List String → Option Nat
  | [] => none
  | y :: rest =>
    match lastIndex x rest with
    | some i => some (i + 1)
    | none => if y = x then some 0 else none

/-- The position of a named column. -/
def index? (s : Schema) (name : String) : Option Nat := lastIndex name s.names

/-- The position of the identifier column. -/
def idIndex? (s : Schema) : Option Nat :=
  match s.fields.findIdx? Field.identifier with
  | some i => some i
  | none => s.fields.findIdx? (·.type == .long)

theorem lastIndex_eq_none_iff {x : String} {xs : List String} : lastIndex x xs = none ↔ x ∉ xs := by
  induction xs with
  | nil => simp [lastIndex]
  | cons y rest ih =>
    cases h : lastIndex x rest with
    | some i => simp_all [lastIndex]
    | none =>
      rw [h] at ih
      by_cases e : y = x
      · simp [lastIndex, h, e]
      · simp [lastIndex, h, e, Ne.symm e, ih.1 rfl]

theorem getElem?_of_lastIndex {x : String} {xs : List String} {i : Nat} (h : lastIndex x xs = some i) :
    xs[i]? = some x := by
  induction xs generalizing i with
  | nil => cases h
  | cons y rest ih =>
    unfold lastIndex at h
    split at h
    · rename_i j hj
      cases h
      simpa using ih hj
    · split at h
      · rename_i e
        cases h
        simp [e]
      · cases h

end Schema

end FragmentEngine
