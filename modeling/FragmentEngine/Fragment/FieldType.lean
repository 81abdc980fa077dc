import FragmentEngine.Text.Blank
import FragmentEngine.Text.Lowercase
/-!
# Field types

The four column types of a fragment, the names they go by in queries, and their one-byte tags in images.
-/

namespace FragmentEngine

inductive FieldType where
  | long
  | real
  | string
  | blob
  deriving DecidableEq

namespace FieldType

def name : FieldType → String
  | .long => "LONG"
  | .real => "REAL"
  | .string => "STRING"
  | .blob => "BLOB"

/-- The encoded size, for types of fixed size. -/
def size : FieldType → Option Nat
  | .long | .real => some 8
  | .string | .blob => none

def isNumeric : FieldType → Bool
  | .long | .real => true
  | .string | .blob => false

/-- The type that a lower-case word stands for. -/
def named? (word : String) : Option FieldType :=
  if word ∈ ["long", "int", "integer", "bigint"] then some .long
  else if word ∈ ["real", "double", "float"] then some .real
  else if word ∈ ["string", "varchar", "text"] then some .string
  else if word ∈ ["blob", "binary"] then some .blob
  else none

def tag : FieldType → UInt8
  | .long => 1
  | .real => 2
  | .string => 3
  | .blob => 4

def ofTag? (b : UInt8) : Option FieldType :=
  if b = 1 then some .long
  else if b = 2 then some .real
  else if b = 3 then some .string
  else if b = 4 then some .blob
  else none

theorem ofTag?_tag (t : FieldType) : ofTag? t.tag = some t := by cases t <;> rfl

theorem tag_eq_of_ofTag? {b : UInt8} {t : FieldType} (h : ofTag? b = some t) : t.tag = b := by
  unfold ofTag? at h
  repeat' split at h
  all_goals simp_all [tag] <;> subst h <;> rfl

end FieldType

end FragmentEngine
