import FragmentEngine.Engine.Session
/-!
# Server configuration

Where a server listens and what engine it serves.
-/

namespace FragmentEngine

inductive OutputFormat where
  | table
  | json
  deriving DecidableEq

/-- The port of servers that name none. -/
def ServerConfig.defaultPort : Nat := 7171

structure ServerConfig where
  host : String := "127.0.0.1"
  port : Nat := ServerConfig.defaultPort
  maxConnections : Nat := 100
  /-- The directory of the store and the catalog; without one they are kept in memory. -/
  dataDirectory : Option String := none
  headroom : Nat := 0
  /-- The format in which new sessions answer. -/
  format : OutputFormat := .table
  deriving DecidableEq

namespace ServerConfig

def bindAddress (c : ServerConfig) : String := s!"{c.host}:{c.port}"

def engine (c : ServerConfig) : Engine := .builtin c.headroom

/-- The world of a new server, and the disk after starting it. -/
def start (c : ServerConfig) (d : Disk) : Except Error World × Disk :=
  match c.dataDirectory with
  | some directory => World.inDirectory d ⟨directory⟩
  | none => (.ok (World.inMemory d), d)

end ServerConfig

end FragmentEngine
