import FragmentEngine.Decimal.Whole
import FragmentEngine.Request.Operation
import FragmentEngine.Request.Sections
/-!
# Query parameters

A query is a list of `key=value` pairs between semicolons. Keys are words in any case, each known and given at
most once; values keep their quoted sections, lose the blanks around them, and count as absent when empty.
-/

namespace FragmentEngine

/-- The keys that queries use. -/
def knownKeys : List String :=
  ["operation", "frag_name", "db_name", "device", "field", "field_type", "field_alias", "value", "from",
    "from_alias", "where", "group", "order", "limit", "sequential_id", "run", "final_statement", "src_path",
    "measure", "nrows", "id_start", "dim_type", "dim_index", "dim_start", "dim_end", "producer"]

structure Params where
  /-- The pairs in the order they were given. -/
  entries : List (String × String)
  deriving DecidableEq

namespace Params

/-! ## Grammar -/

/-- The blanks that the grammar allows between its parts. -/
def isSpace (c : Char) : Bool := c == ' ' || c == '\t' || c == '\r' || c == '\n'

def isKeyChar (c : Char) : Bool := c.isAlphanum || c == '_'

/-- The key at the front, with the blanks around it, and what follows the equals sign. -/
def key? (cs : List Char) : Option (List Char × List Char) :=
  let start := cs.dropWhile isSpace
  let key := start.takeWhile isKeyChar
  match (start.dropWhile isKeyChar).dropWhile isSpace with
  | '=' :: rest => if key.isEmpty then none else some (key, rest)
  | _ => none

/-- What may follow the last pair: a semicolon, then blanks. Fails with anything more. -/
def finish (cs : List Char) : Except (List Char) (List (List Char × List Char)) :=
  let rest := match cs with
    | ';' :: rest => rest
    | _ => cs
  match rest.dropWhile isSpace with
  | [] => .ok []
  | more => .error more

theorem length_key?_lt {cs key rest : List Char} (h : key? cs = some (key, rest)) :
    rest.length < cs.length := by
  simp only [key?] at h
  split at h
  · rename_i r hr
    split at h
    · cases h
    cases h
    have a := (List.dropWhile_sublist isSpace (l := cs)).length_le
    have b := (List.dropWhile_sublist isKeyChar (l := cs.dropWhile isSpace)).length_le
    have c := (List.dropWhile_sublist isSpace
      (l := (cs.dropWhile isSpace).dropWhile isKeyChar)).length_le
    rw [hr, List.length_cons] at c
    omega
  · cases h

/-- The pairs of a text. Fails with what follows the last pair that can be read. -/
def pairs (cs : List Char) : Except (List Char) (List (List Char × List Char)) :=
  match _key : key? cs with
  | none => finish cs
  | some (key, rest) =>
    match _value : Sections.span ';' none rest with
    | (value, ';' :: more) =>
      if (key? more).isSome then (pairs more).map ((key, value) :: ·)
      else (finish (';' :: more)).map ((key, value) :: ·)
    | (value, rest) => (finish rest).map ((key, value) :: ·)
termination_by cs.length
decreasing_by
  have a := length_key?_lt _key
  have b := Sections.length_span_le ';' none rest
  rw [_value] at b
  simp only [List.length_cons] at b
  omega

/-! ## Reading -/

/-- Adds a pair under a known key that is not taken. -/
def add (p : Params) (key value : List Char) : Except Error Params :=
  let k := String.ofList (key.map Char.toLower)
  if k ∉ knownKeys then .error (.parse (.unknownKey k))
  else if (p.entries.lookup k).isSome then .error (.parse (.duplicateKey k))
  else .ok ⟨p.entries ++ [(k, String.ofList (Text.trim value))]⟩

/-- The parameters of a query text. -/
def parse (text : String) : Except Error Params :=
  match pairs text.toList with
  | .error rest => .error (.parse (.malformedQuery text rest))
  | .ok found => found.foldlM (fun p (key, value) => p.add key value) ⟨[]⟩

/-! ## Values -/

/-- The value of a key, unless it is empty. -/
def get? (p : Params) (key : String) : Option String := (p.entries.lookup key).filter (· ≠ "")

/-- The value of a mandatory key. -/
def require (p : Params) (key : String) : Except Error String :=
  match p.get? key with
  | some v => .ok v
  | none => .error (.missing key)

/-- The entries of a key, none if it is absent. -/
def list (p : Params) (key : String) : Except Error (List String) :=
  match p.get? key with
  | some v => Sections.list v
  | none => .ok []

/-- The entries of a mandatory key. -/
def requireList (p : Params) (key : String) : Except Error (List String) := do
  Sections.list (← p.require key)

/-- The long of a key. -/
def long? (p : Params) (key : String) : Except Error (Option Long) :=
  match p.get? key with
  | none => .ok none
  | some v =>
    match Decimal.long? v.toList with
    | some n => .ok (some n)
    | none => .error (.parse (.notInteger key v))

/-- The count of a key. -/
def count? (p : Params) (key : String) : Except Error (Option Nat) :=
  match p.get? key with
  | none => .ok none
  | some v =>
    match Decimal.count? v.toList with
    | some n => .ok (some n)
    | none => .error (.parse (.notCount key v))

/-- Whether the value of a key says yes. -/
def flag (p : Params) (key : String) : Bool :=
  match p.get? key with
  | none => false
  | some v => String.ofList (Text.lowercase v.toList) ∈ ["yes", "true", "1"]

/-- The operation asked for. -/
def operation (p : Params) : Except Error Operation := do
  Operation.read (← p.require "operation")

example : (parse " a=1").toOption = none ∧
    (parse "Field = 'a;b' ;where= ; ").toOption = some ⟨[("field", "'a;b'"), ("where", "")]⟩ := by decide +kernel

end Params

end FragmentEngine
