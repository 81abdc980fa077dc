import FragmentEngine.Decimal.Whole
import FragmentEngine.Server.Config
import FragmentEngine.Text.Split
/-!
# Connection URLs

Addresses of the form `scheme://host[:port][/path]`. The port follows the last colon, unless a bracket stands
before that colon.
-/

namespace FragmentEngine

structure ConnectionUrl where
  scheme : String
  host : String
  port : Option Nat
  /-- The data directory, without the slash before it. -/
  path : String
  deriving DecidableEq

namespace ConnectionUrl

/-- The parts before and after the first `://`. -/
def splitScheme : List Char → Option (List Char × List Char)
  | [] => none
  | ':' :: '/' :: '/' :: rest => some ([], rest)
  | c :: rest => (splitScheme rest).map fun (a, b) => (c :: a, b)

/-- The host and the port of an address. -/
def hostPort (address : List Char) : Except Error (List Char × Option Nat) :=
  match Text.splitLast ':' address with
  | none => .ok (address, none)
  | some (host, port) =>
    if '[' ∈ host then .ok (address, none)
    else match Decimal.word? 16 port with
      | some n => .ok (host, some n)
      | none => .error (.parse (.invalidPort (String.ofList port)))

def parse (text : String) : Except Error ConnectionUrl :=
  match splitScheme text.toList with
  | none => .error (.parse .missingScheme)
  | some (scheme, rest) => do
    let (address, path) := (Text.splitOnce '/' rest).getD (rest, [])
    let (host, port) ← hostPort address
    if host.isEmpty then throw (.parse .missingHost)
    return ⟨String.ofList scheme, String.ofList host, port, String.ofList path⟩

/-- The configuration of a server at this address. -/
def toConfig (u : ConnectionUrl) : ServerConfig :=
  { host := u.host
    port := u.port.getD ServerConfig.defaultPort
    dataDirectory := if u.path.isEmpty then none else some u.path }

end ConnectionUrl

end FragmentEngine
