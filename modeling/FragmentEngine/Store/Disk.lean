import Std.Data.ExtTreeMap
import FragmentEngine.Bytes
import FragmentEngine.Store.Path
/-!
# Disks

A tree of directories and files. An operation fails when a name on the way is missing, too long or that of a
file, or when what stands at the end is of the wrong kind.
-/

namespace FragmentEngine

inductive Node where
  | file (bytes : Bytes)
  | directory
  deriving DecidableEq

structure Disk where
  /-- All files and directories but the top one. -/
  nodes : Std.ExtTreeMap Path Node compare

namespace Disk

/-- Nothing but an empty working directory and the one above it. -/
def empty : Disk :=
  ⟨Std.ExtTreeMap.ofList [(Path.aboveWorking, .directory), (Path.working, .directory)] compare⟩

/-- The names of directories found at the top of a system. -/
def usualNames : List String :=
  ["bin", "dev", "etc", "home", "lib", "proc", "root", "run", "sbin", "sys", "tmp", "usr", "var"]

/-- An empty working directory in a system with the usual directories and a device that reads as an empty
file. -/
def usual : Disk :=
  ⟨(usualNames.foldl (fun nodes name => nodes.insert [name] .directory) empty.nodes).insert ["dev", "null"]
    (.file [])⟩

/-! ## Looking -/

/-- How many bytes a name may have. -/
def nameLimit : Nat := 255

/-- What stands under a name in a directory. -/
def entry (d : Disk) (p : Path) (name : String) : Except DiskError Node :=
  if nameLimit < name.utf8ByteSize then .error .nameTooLong
  else match d.nodes[p ++ [name]]? with
    | some node => .ok node
    | none => .error .notFound

/-- What stands at `path` below the directory `start`. -/
def find (d : Disk) (start : Path) : Path → Except DiskError Node
  | [] => .ok .directory
  | name :: rest => do
    match ← d.entry start name with
    | .directory => d.find (start ++ [name]) rest
    | .file bytes => if rest.isEmpty then return .file bytes else throw .notDirectory

/-- What stands at a path. -/
def node (d : Disk) (p : Path) : Except DiskError Node := d.find [] p

def isDirectory (d : Disk) (p : Path) : Bool :=
  match d.node p with
  | .ok .directory => true
  | _ => false

def exists? (d : Disk) (p : Path) : Bool := (d.node p).isOk

/-! ## Routes -/

/-- The place that one step from a directory leads to. -/
def step (d : Disk) (p : Path) (name : String) : Except DiskError Path :=
  if name = "." then .ok p
  else if name = ".." then .ok p.dropLast
  else (d.entry p name).map fun _ => p ++ [name]

/-- The place that steps lead to, each taken in a directory. -/
def walk (d : Disk) (p : Path) : List String → Except DiskError Path
  | [] => .ok p
  | name :: rest => if d.isDirectory p then do d.walk (← d.step p name) rest else .error .notDirectory

/-- The place that a route leads to. -/
def locate (d : Disk) (r : Route) : Except DiskError Path := do
  r.check
  let p ← d.walk r.start r.steps
  if r.isClosed && !d.isDirectory p then throw .notDirectory
  return p

/-! ## Files -/

/-- The bytes of a file. -/
def read (d : Disk) (p : Path) : Except DiskError Bytes := do
  match ← d.node p with
  | .file bytes => return bytes
  | .directory => throw .isDirectory

/-- Creates or replaces a file in a directory that exists. -/
def write (d : Disk) (p : Path) (bytes : Bytes) : Except DiskError Disk := do
  match ← d.node p.dropLast with
  | .file _ => throw .notDirectory
  | .directory =>
    match d.node p with
    | .ok .directory => throw .isDirectory
    | .ok (.file _) | .error .notFound => return ⟨d.nodes.insert p (.file bytes)⟩
    | .error e => throw e

/-- Moves a file in place of another one. -/
def rename (d : Disk) (source target : Path) : Except DiskError Disk := do
  let bytes ← d.read source
  let d ← d.write target bytes
  return if source = target then d else ⟨d.nodes.erase source⟩

/-- Removes a file. -/
def remove (d : Disk) (p : Path) : Except DiskError Disk := do
  discard (d.read p)
  return ⟨d.nodes.erase p⟩

/-! ## Directories -/

/-- Makes a directory under a name of another one, unless there is one already. -/
def addDirectory (d : Disk) (p : Path) (name : String) : Except DiskError Disk :=
  match d.entry p name with
  | .ok .directory => .ok d
  | .ok (.file _) => .error .exists
  | .error .notFound => .ok ⟨d.nodes.insert (p ++ [name]) .directory⟩
  | .error e => .error e

/-- Makes the directory that the last step names; the steps before it lead through directories. -/
def makeLast (d : Disk) (p : Path) (steps : List String) : Except DiskError Disk :=
  match steps.getLast? with
  | none => .ok d
  | some name => do
    let p ← d.walk p steps.dropLast
    if !d.isDirectory p then throw .notDirectory
    if name = "." ∨ name = ".." then return d
    d.addDirectory p name

/-- Makes the directory that the first way leads to. If a directory on it is missing, the one that the next way
leads to is made before. -/
def makeWays (d : Disk) (p : Path) : List (List String) → Except DiskError Disk
  | [] => .ok d
  | steps :: shorter =>
    match d.makeLast p steps with
    | .error .notFound => do (← d.makeWays p shorter).makeLast p steps
    | outcome => outcome

/-- Makes a directory and those on the way to it; the empty route is the working directory. -/
def createDirectory (d : Disk) (r : Route) : Except DiskError Disk := do
  if r.text.isEmpty then return d
  r.check
  d.makeWays r.start (Route.ways r.steps)

/-- Removes a directory with all it contains. -/
def removeDirectory (d : Disk) (p : Path) : Except DiskError Disk := do
  match ← d.node p with
  | .file _ => throw .notDirectory
  | .directory => return ⟨d.nodes.filter fun q _ => !p.isPrefixOf q⟩

end Disk

end FragmentEngine
