import FragmentEngine.Server.Client
/-!
# The shell

A client on the terminal, of an engine that lives in memory as long as the shell runs. The files that imports
read are those of the machine.
-/

namespace FragmentEngine.Shell

def banner : String :=
  "\n FragDB v0.1.0\n Fragment-oriented query shell\n Type '.help' for help, '.quit' to exit\n\n"

def help : String :=
  "\nCommands:\n" ++
  "  .help                Show this help message\n" ++
  "  .quit                Exit FragDB\n" ++
  "  .mode json|table     Choose the result format\n" ++
  "  .databases           List all databases\n" ++
  "  .fragments <db>      List the fragments of a database\n" ++
  "  .clear               Clear screen\n" ++
  "\n" ++
  "Queries are key=value pairs separated by ';'. Multiple entries of one\n" ++
  "key are separated by '|'. Binary arguments for ?1, ?2, ... follow the\n" ++
  "query after a TAB as type:payload entries.\n\n"

/-- What clears the screen of a terminal. -/
def clear : String := "\x1b[2J\x1b[1;1H"

/-- The text of a file on the machine. -/
def fetch (r : Route) : IO (Except Error String) := do
  try return World.textOf (← IO.FS.readBinFile r.text).toList
  catch _ => return .error (.disk .notFound)

/-- Runs a program to its end. -/
def run {α : Type} (w : World) : Program α → IO (α × World)
  | .done a => return (a, w)
  | .call (.readFile r) next => do run w (next (← fetch r))
  | .call c next =>
    let (reply, w) := c.perform w
    run w (next reply)

/-- Answers lines until the client leaves or there are no more. -/
partial def serve (input output : IO.FS.Stream) (c : Client) (w : World) : IO Unit := do
  output.putStr "fragdb> "
  output.flush
  let line ← input.getLine
  if line.isEmpty then
    output.putStrLn "\nGoodbye!"
    return
  match Text.trimmed line with
  | ".help" =>
    output.putStr help
    serve input output c w
  | ".clear" =>
    output.putStr clear
    serve input output c w
  | _ =>
    match ← run w (c.process line) with
    | ((none, c), w) => serve input output c w
    | ((some (.text s), c), w) =>
      output.putStr s
      serve input output c w
    | ((some (.close s), _), _) => output.putStr s

end FragmentEngine.Shell

open FragmentEngine in
/-- Serves the terminal. -/
def main : IO Unit := do
  let output ← IO.getStdout
  output.putStr Shell.banner
  Shell.serve (← IO.getStdin) output ⟨Session.new (.builtin 0), .table⟩ (World.inMemory .empty)
