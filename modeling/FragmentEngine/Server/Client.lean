import FragmentEngine.Server.Answer
/-!
# Clients

What a server does with the lines of a connection. A line is a query, with positional arguments after a tab,
or a command that starts with a point. Blank lines are passed over.
-/

namespace FragmentEngine

inductive Reply where
  | text (s : String)
  /-- The last text of a connection. -/
  | close (s : String)
  deriving DecidableEq

/-- The state of a connection. -/
structure Client where
  session : Session
  format : OutputFormat

namespace Client

/-- A titled list, one name on each line. -/
def listing (title : String) (names : List String) : String :=
  let lines := "\n".intercalate (names.map fun name => s!"  {name}")
  s!"{title}:\n{lines}\n"

def listDatabases (c : Client) : Program String := do
  match ← (Call.listDatabases.make).run with
  | .ok [] => return "No databases found.\n"
  | .ok names => return listing "Databases" names
  | .error e => return e.answer c.format

def listFragments (c : Client) (db : String) : Program String := do
  match ← ((Call.findDatabase db).make).run with
  | .ok d =>
    if d.fragments.isEmpty then return s!"No fragments in '{db}'.\n"
    else return listing s!"Fragments in '{db}'" d.fragments
  | .error e => return e.answer c.format

/-- Carries out a command. -/
def command (c : Client) (text : List Char) : Program (Reply × Client) := do
  match (Text.words text).map String.ofList with
  | [".quit"] | [".exit"] => return (.close "Goodbye!\n", c)
  | [".mode", "json"] => return (.text "Output mode set to JSON\n", { c with format := .json })
  | [".mode", "table"] => return (.text "Output mode set to Table\n", { c with format := .table })
  | [".databases"] => return (.text (← c.listDatabases), c)
  | [".fragments", db] => return (.text (← c.listFragments db), c)
  | _ =>
    let text := String.ofList text
    return (.text s!"Unknown command: {text}\n", c)

/-- Carries out a query, with the arguments that follow a tab. -/
def query (c : Client) (line : List Char) : Program (Except Error Reply × Client) := do
  let (text, args) := (Text.splitOnce '\t' line).getD (line, [])
  match Argument.readList (String.ofList args) with
  | .error e => return (.ok (.text (e.answer c.format)), c)
  | .ok args =>
    let (outcome, session) ← c.session.execute (String.ofList text) args
    return ((answered outcome c.format).map .text, { c with session := session })

/-- Carries out a line. A blank one has no reply, and `.overflow` is in the place of one for an abandoned
query. -/
def attempt (c : Client) (line : String) : Program (Except Error (Option Reply) × Client) := do
  let line := Text.dropEnd (fun ch => ch == '\r' || ch == '\n') line.toList
  let trimmed := Text.trim line
  match trimmed with
  | [] => return (.ok none, c)
  | '.' :: _ => do
    let (reply, c) ← c.command trimmed
    return (.ok (some reply), c)
  | _ => do
    let (reply, c) ← c.query line
    return (reply.map some, c)

/-- Carries out a line and passes over abandoned queries. -/
def process (c : Client) (line : String) : Program (Option Reply × Client) := do
  let (reply, c) ← c.attempt line
  return (reply.toOption.join, c)

end Client

end FragmentEngine
