import FragmentEngine.Error
import FragmentEngine.Text.Blank
import FragmentEngine.Text.Lowercase
/-!
# Operations

The kinds of query a session carries out, and their names.
-/

namespace FragmentEngine

inductive Operation where
  | createDatabase
  | dropDatabase
  | createFragment
  | insert
  | multiInsert
  | createFromSelect
  | createFromFile
  | select
  | dropFragment
  deriving DecidableEq

namespace Operation

def name : Operation → String
  | .createDatabase => "create_db"
  | .dropDatabase => "drop_db"
  | .createFragment => "create_frag"
  | .insert => "insert"
  | .multiInsert => "multi_insert"
  | .createFromSelect => "create_frag_select"
  | .createFromFile => "create_frag_from_file"
  | .select => "select"
  | .dropFragment => "drop_frag"

def all : List Operation :=
  [.createDatabase, .dropDatabase, .createFragment, .insert, .multiInsert, .createFromSelect, .createFromFile,
    .select, .dropFragment]

theorem mem_all (op : Operation) : op ∈ all := by cases op <;> decide

/-- The operation a text names, in any case and with blanks around it. -/
def read (text : String) : Except Error Operation :=
  let word := String.ofList (Text.lowercase (Text.trim text.toList))
  match all.find? (·.name == word) with
  | some op => .ok op
  | none => .error (.parse (.unknownOperation word))

end Operation

end FragmentEngine
