import FragmentEngine.Server.Client
/-!
# Connections

A server greets a client and answers its lines until the client leaves, its lines end, one is not text, or a
query is abandoned.
-/

namespace FragmentEngine.Connection

/-- What a server sends first. -/
def greeting : String := "FragDB Server v0.1.0\nReady for queries.\n"

/-- Cuts bytes after each line feed. -/
def lines : Bytes → List Bytes
  | [] => []
  | b :: rest =>
    if b = 10 then [b] :: lines rest
    else match lines rest with
      | [] => [[b]]
      | line :: more => (b :: line) :: more

/-- The text of a line. -/
def text (line : Bytes) : Except Error String :=
  match Text.Utf8.decode line with
  | .ok s => .ok s
  | .error e => .error (.disk (.lineNotText e))

/-- Answers lines one by one: all that is sent, and how the connection ends. -/
def answer (c : Client) : List Bytes → Program (String × Except Error Unit)
  | [] => return ("", .ok ())
  | line :: rest =>
    match text line with
    | .error e => return ("", .error e)
    | .ok line => do
      match ← c.attempt line with
      | (.error e, _) => return ("", .error e)
      | (.ok none, c) => answer c rest
      | (.ok (some (.close s)), _) => return (s, .ok ())
      | (.ok (some (.text s)), c) =>
        let (sent, outcome) ← answer c rest
        return (s ++ sent, outcome)

/-- Serves a client that sends the given bytes. -/
def serve (e : Engine) (format : OutputFormat) (input : Bytes) : Program (String × Except Error Unit) := do
  let (sent, outcome) ← answer ⟨Session.new e, format⟩ (lines input)
  return (greeting ++ sent, outcome)

end FragmentEngine.Connection
