import FragmentEngine.Engine.Import
import FragmentEngine.Engine.Program
import FragmentEngine.Engine.Result
import FragmentEngine.Insert.Row
import FragmentEngine.Insert.Statement
import FragmentEngine.Request.Params
import FragmentEngine.Select.Request
/-!
# Sessions

How a query is carried out: the calls each operation makes, and what becomes of the session's running
statement. A statement belongs to one session; an insert that fails discards it.
-/

namespace FragmentEngine

/-- Makes fragments for imports from the text of a file. -/
abbrev Producer := Import → String → Except Error Fragment

/-- What all sessions of an engine use without changing it. -/
structure Engine where
  registry : Registry
  producers : List (String × Producer)
  /-- Free slots of a symbol table beyond those of the variables. -/
  headroom : Nat

namespace Engine

/-- The producer of imports that name none. -/
def defaultProducer : String := "text"

/-- The engine with the functions of the language. -/
def builtin (headroom : Nat) : Engine := ⟨.builtin, [(defaultProducer, Import.ofText)], headroom⟩

def producer (e : Engine) (name : String) : Except Error Producer :=
  match e.producers.lookup name with
  | some p => .ok p
  | none => .error (.store (.noProducer name))

def context (e : Engine) (args : List Argument) : Context := ⟨e.registry, args, e.headroom⟩

end Engine

/-- One query of a session. -/
structure Request where
  engine : Engine
  params : Params
  args : List Argument

namespace Request

/-! ## Names -/

/-- The database and name of a fragment written `db.name`, or a bare name in a default database. -/
def qualified (name : String) (db : Option String) : Except Error (String × String) := do
  let (db, name) ← match Text.splitOnce '.' name.toList with
    | some (db, name) => pure (String.ofList db, String.ofList name)
    | none =>
      match db with
      | some db => pure (db, name)
      | none => throw (.missing "db_name")
  Name.check db
  Name.check name
  return (db, name)

/-- The fragment that a query writes or drops. -/
def target (r : Request) : Except Error (String × String) := do
  qualified (← r.params.require "frag_name") (r.params.get? "db_name")

/-- Refuses a fragment that exists or has no database. -/
def checkNew (db name : String) : Query Unit := do
  discard (Call.findDatabase db).make
  match ← (Call.findFragment db name).attempt with
  | .ok _ => throw (.catalog (.alreadyExists (Catalog.key db name)))
  | .error (.catalog (.fragmentNotFound _)) => return ()
  | .error e => throw e

/-! ## Databases -/

def createDatabase (r : Request) : Query QueryResult := do
  let name ← r.params.require "db_name"
  Name.check name
  discard (Call.addDatabase name).make
  if let .error e ← (Call.putDatabase name).attempt then
    discard (Call.removeDatabase name).make
    throw e
  Call.flush.make
  return .ofMessage s!"Database '{name}' created"

def dropDatabase (r : Request) (statement : Option Statement) : Query QueryResult := do
  let name ← r.params.require "db_name"
  let d ← (Call.findDatabase name).make
  if statement.any (·.db = name) then throw (.exec (.databaseBusy name))
  (Call.deleteDatabase name).make
  discard (Call.removeDatabase name).make
  Call.flush.make
  return .ofMessage s!"Database '{name}' dropped ({d.fragments.length} fragment(s))"

/-! ## Storing -/

/-- Enters a fragment into the catalog, writes it and saves the catalog. The entry is taken out again if the
fragment cannot be written. -/
def store (f : Fragment) (db : String) (device : Option String) : Query Unit := do
  (Call.addFragment (FragmentEntry.describe db device f)).make
  if let .error e ← (Call.putFragment db f).attempt then
    discard (Call.removeFragment db f.name).attempt
    throw e
  Call.flush.make

def dropFragment (r : Request) : Query QueryResult := do
  let (db, name) ← r.target
  discard (Call.findFragment db name).make
  (Call.deleteFragment db name).make
  discard (Call.removeFragment db name).make
  Call.flush.make
  return .ofMessage s!"Fragment '{db}.{name}' dropped"

/-! ## Statements -/

/-- The columns of a new fragment. -/
def newSchema (r : Request) : Except Error Schema := do
  let names ← r.params.requireList "field"
  let types ← r.params.requireList "field_type"
  if names.length ≠ types.length then throw (.exec (.fieldTypeCount names.length types.length))
  let fields ← (names.zip types).mapM fun (name, type) => do return Field.mk name (← FieldType.read type) false
  return ⟨fields⟩

/-- Opens a statement, or stores an empty fragment if no run is to follow. -/
def createFragment (r : Request) (statement : Option Statement) : Query (QueryResult × Option Statement) := do
  if let some s := statement then throw (.exec (.statementOpen s.db s.fragment.name))
  let (db, name) ← r.target
  checkNew db name
  let schema ← r.newSchema
  let runs := (← r.params.count? "run").getD 1
  let device := r.params.get? "device"
  let s := Statement.start db name device schema runs
  if runs = 0 then
    store s.fragment db device
    return (.ofMessage s!"Fragment '{db}.{name}' created empty", none)
  return (.ofMessage s!"Fragment '{db}.{name}' opened for {runs} run(s)", some s)

/-- The records that an insert brings, one or several. -/
def insertedRecords (r : Request) (several : Bool) (schema : Schema) : Except Error (List Record) := do
  let names ← r.params.list "field"
  let values ← r.params.requireList "value"
  let context := r.engine.context r.args
  if several then Insert.records context schema names values
  else return [← Insert.record context schema names values]

/-- Adds a run to the statement, and stores its fragment after the last one. -/
def insert (r : Request) (several : Bool) (statement : Option Statement) :
    Query (QueryResult × Option Statement) := do
  match statement with
  | none => throw (.exec .noStatement)
  | some s =>
    let records ← r.insertedRecords several s.fragment.schema
    let count := records.length
    let (outcome, s) := s.append records (r.params.flag "final_statement")
    if ← outcome then
      store s.fragment s.db s.device
      let total := s.fragment.rowCount
      return (.written count s!"Fragment '{s.db}.{s.fragment.name}' stored with {total} row(s)", none)
    else
      return (.written count s!"{count} row(s) buffered (run {s.currentRun} of {s.totalRuns})", some s)

/-! ## Selecting -/

/-- Loads one source. -/
def loadSource (r : Request) (name : String) (alias? : Option String) : Query Source := do
  let (db, name) ← qualified name (r.params.get? "db_name")
  discard (Call.findFragment db name).make
  let f ← (Call.getFragment db name).make
  return ⟨f, alias?, some db⟩

/-- Loads the sources one by one. -/
def loadSources (r : Request) : Query (List Source) := do
  let names ← r.params.requireList "from"
  let aliases ← r.params.list "from_alias"
  if ¬aliases.isEmpty ∧ aliases.length ≠ names.length then
    throw (.exec (.sourceAliasCount aliases.length names.length))
  names.zipIdx.mapM fun (name, i) => r.loadSource name aliases[i]?

def selectRequest (r : Request) (name : String) : Except Error SelectRequest := do
  let fields ← r.params.requireList "field"
  let aliases ← r.params.list "field_alias"
  let group ← r.params.list "group"
  let window ← Window.parse (← r.params.list "limit")
  let sequentialId ← r.params.long? "sequential_id"
  return ⟨name, fields, aliases, r.params.get? "where", group, r.params.get? "order", window, sequentialId⟩

def select (r : Request) : Query QueryResult := do
  let sources ← r.loadSources
  let request ← r.selectRequest ((r.params.get? "frag_name").getD "result")
  let f ← request.execute (r.engine.context r.args) sources
  QueryResult.ofFragment f

def createFromSelect (r : Request) : Query QueryResult := do
  let (db, name) ← r.target
  checkNew db name
  let sources ← r.loadSources
  let request ← r.selectRequest name
  let f ← request.execute (r.engine.context r.args) sources
  store f db (r.params.get? "device")
  return .written f.rowCount s!"Fragment '{db}.{f.name}' created with {f.rowCount} row(s)"

/-! ## Importing -/

/-- The entries of a key that describe dimensions, none or one for each. -/
def dimensionEntries (r : Request) (key : String) (dimensions : Nat) : Except Error (List String) := do
  let values ← r.params.list key
  if ¬values.isEmpty ∧ values.length ≠ dimensions then
    throw (.exec (.dimensionCount key values.length dimensions))
  return values

/-- The long in entry `i`, or the default if there are no entries. -/
def dimensionLong (key : String) (values : List String) (i : Nat) (default : Long) : Except Error Long :=
  match values[i]? with
  | none => .ok default
  | some v =>
    match Decimal.long? v.toList with
    | some n => .ok n
    | none => .error (.parse (.notInteger key v))

def dimensions (r : Request) : Except Error (List Dimension) := do
  let types ← r.params.list "dim_type"
  let indexes ← r.dimensionEntries "dim_index" types.length
  let starts ← r.dimensionEntries "dim_start" types.length
  let stops ← r.dimensionEntries "dim_end" types.length
  types.zipIdx.mapM fun (type, i) => do
    let index ← dimensionLong "dim_index" indexes i (Int64.ofNat (i + 1))
    let start ← dimensionLong "dim_start" starts i 1
    let stop ← dimensionLong "dim_end" stops i 0
    return ⟨type, index.toInt.toNat, start, stop⟩

def importRequest (r : Request) : Except Error Import := do
  let source ← r.params.require "src_path"
  let measure ← r.params.require "measure"
  let rowCount ← r.params.count? "nrows"
  let firstId := (← r.params.long? "id_start").getD 1
  return ⟨source, measure, rowCount, firstId, ← r.dimensions⟩

def createFromFile (r : Request) : Query QueryResult := do
  let (db, name) ← r.target
  checkNew db name
  let producer ← r.engine.producer ((r.params.get? "producer").getD Engine.defaultProducer)
  let request ← r.importRequest
  let text ← (Call.readFile ⟨request.source⟩).make
  let f := { ← producer request text with name := name }
  store f db (r.params.get? "device")
  return .written f.rowCount s!"Fragment '{db}.{name}' imported with {f.rowCount} row(s)"

/-! ## Queries -/

/-- Carries out an operation; the statement of the session stays unless the operation is about it. -/
def perform (r : Request) (statement : Option Statement) : Operation → Query (QueryResult × Option Statement)
  | .createDatabase => do return (← r.createDatabase, statement)
  | .dropDatabase => do return (← r.dropDatabase statement, statement)
  | .createFragment => r.createFragment statement
  | .insert => r.insert false statement
  | .multiInsert => r.insert true statement
  | .createFromSelect => do return (← r.createFromSelect, statement)
  | .createFromFile => do return (← r.createFromFile, statement)
  | .select => do return (← r.select, statement)
  | .dropFragment => do return (← r.dropFragment, statement)

end Request

/-- The statement after an operation fails. -/
def Operation.statementAfterFailure (statement : Option Statement) : Operation → Option Statement
  | .insert | .multiInsert => none
  | _ => statement

/-- One connection's share of an engine. -/
structure Session where
  engine : Engine
  /-- The statement that inserts add to. -/
  statement : Option Statement

namespace Session

def new (e : Engine) : Session := ⟨e, none⟩

/-- Carries out an operation of the session. -/
def perform (s : Session) (params : Params) (args : List Argument) (op : Operation) :
    Program (Except Error QueryResult × Session) := do
  let r : Request := ⟨s.engine, params, args⟩
  match ← (r.perform s.statement op).run with
  | .ok (result, statement) => return (.ok result, { s with statement := statement })
  | .error e => return (.error e, { s with statement := op.statementAfterFailure s.statement })

/-- Carries out a query text with its positional arguments. -/
def execute (s : Session) (query : String) (args : List Argument) :
    Program (Except Error QueryResult × Session) :=
  match (do let p ← Params.parse query; return (p, ← p.operation)) with
  | .ok (params, op) => s.perform params args op
  | .error e => .done (.error e, s)

end Session

end FragmentEngine
