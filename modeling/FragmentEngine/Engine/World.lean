import FragmentEngine.Catalog.Form
import FragmentEngine.Store.Basic
/-!
# The shared state of an engine

The catalog, the store and the disk, and the calls by which sessions read and change them. A call is carried
out as a whole: no other session sees a state in the middle of one.
-/

namespace FragmentEngine

/-- Where the contents of fragments are. -/
inductive Store where
  | memory (m : MemoryStore)
  | files (s : FileStore)

structure World where
  disk : Disk
  catalog : Catalog
  /-- The file that keeps the catalog, if one does. -/
  catalogFile : Option Path
  store : Store

namespace World

/-- An engine without databases that keeps everything in memory. -/
def inMemory (d : Disk) : World := ⟨d, .empty, none, .memory ∅⟩

def catalogName : String := "catalog.json"

/-- The text that the bytes of a file are. -/
def textOf (bytes : Bytes) : Except Error String :=
  match Text.Utf8.decode bytes with
  | .ok text => .ok text
  | .error _ => .error (.disk .notText)

/-- The text of a file. -/
def readText (d : Disk) (p : Path) : Except Error String := do textOf (← FileStore.lift (d.read p))

/-- The text of the file that a route leads to. -/
def readRoute (d : Disk) (r : Route) : Except Error String := do readText d (← FileStore.lift (d.locate r))

/-- The catalog kept in a file, an empty one if there is no such file. -/
def openCatalog (d : Disk) (p : Path) : Except Error Catalog :=
  if d.exists? p then do Catalog.read (← readText d p) else .ok .empty

/-- An engine that keeps its catalog and its fragments in a directory. -/
def keptIn (d : Disk) (root : Path) (c : Catalog) : World := ⟨d, c, some (root ++ [catalogName]), .files ⟨root⟩⟩

/-- The engine that was kept in a directory. -/
def openAt (d : Disk) (root : Path) : Except Error World :=
  (openCatalog d (root ++ [catalogName])).map (keptIn d root)

/-- The engine kept at the end of a route, the working directory for an empty one. No catalog is found where the
route to it cannot be taken. -/
def openRoute (d : Disk) (r : Route) : Except Error World := do
  let root ← if r.text.isEmpty then pure Path.working else FileStore.lift (d.locate r)
  if (r.entry catalogName).check.isOk then openAt d root else return keptIn d root .empty

/-- The engine kept at the end of a route, and the disk after opening it, which makes the directory. -/
def inDirectory (d : Disk) (r : Route) : Except Error World × Disk :=
  match d.createDirectory r with
  | .error e => (.error (.disk e), d)
  | .ok d => (openRoute d r, d)

/-! ## The store -/

def putDatabase (w : World) (db : String) : Except Error World :=
  match w.store with
  | .memory m => do return { w with store := .memory (← m.putDatabase db) }
  | .files s => do return { w with disk := ← s.putDatabase w.disk db }

def deleteDatabase (w : World) (db : String) : Except Error World :=
  match w.store with
  | .memory m => do return { w with store := .memory (← m.deleteDatabase db) }
  | .files s => do return { w with disk := ← s.deleteDatabase w.disk db }

def putFragment (w : World) (db : String) (f : Fragment) : Except Error Unit × World :=
  match w.store with
  | .memory m =>
    match m.putFragment db f with
    | .ok m => (.ok (), { w with store := .memory m })
    | .error e => (.error e, w)
  | .files s =>
    let (outcome, d) := s.putFragment w.disk db f
    (outcome, { w with disk := d })

def getFragment (w : World) (db name : String) : Except Error Fragment :=
  match w.store with
  | .memory m => m.getFragment db name
  | .files s => s.getFragment w.disk db name

def deleteFragment (w : World) (db name : String) : Except Error World :=
  match w.store with
  | .memory m => do return { w with store := .memory (← m.deleteFragment db name) }
  | .files s => do return { w with disk := ← s.deleteFragment w.disk db name }

/-! ## The catalog -/

/-- The answer of an operation on the catalog and the world after it. -/
def withCatalog {α : Type} (w : World) : Except Error (α × Catalog) → Except Error α × World
  | .ok (a, c) => (.ok a, { w with catalog := c })
  | .error e => (.error e, w)

/-- The world after an operation without an answer; a failed one changes nothing. -/
def replacedBy (w : World) : Except Error World → Except Error Unit × World
  | .ok w => (.ok (), w)
  | .error e => (.error e, w)

/-- Writes the catalog to its file. -/
def flush (w : World) : Except Error World :=
  match w.catalogFile with
  | none => .ok w
  | some p => do
    return { w with disk := ← FileStore.lift (w.disk.write p (Text.Utf8.encode w.catalog.render)) }

end World

/-! ## Calls -/

inductive Call where
  | listDatabases
  | findDatabase (name : String)
  | addDatabase (name : String)
  | removeDatabase (name : String)
  | findFragment (db name : String)
  | addFragment (f : FragmentEntry)
  | removeFragment (db name : String)
  | flush
  | putDatabase (db : String)
  | deleteDatabase (db : String)
  | putFragment (db : String) (f : Fragment)
  | getFragment (db name : String)
  | deleteFragment (db name : String)
  | readFile (r : Route)

namespace Call

/-- What a call answers. -/
abbrev Reply : Call → Type
  | .listDatabases => List String
  | .findDatabase _ | .addDatabase _ | .removeDatabase _ => DatabaseEntry
  | .findFragment _ _ | .removeFragment _ _ => FragmentEntry
  | .getFragment _ _ => Fragment
  | .readFile _ => String
  | .addFragment _ | .flush | .putDatabase _ | .deleteDatabase _ | .putFragment _ _ | .deleteFragment _ _ => Unit

/-- The answer of a call and the world after it. A failed call changes nothing, but for an image that was
written and could not be moved into place. -/
def perform (w : World) : (c : Call) → Except Error c.Reply × World
  | .listDatabases => (.ok w.catalog.databaseNames, w)
  | .findDatabase name => (w.catalog.database name, w)
  | .addDatabase name => w.withCatalog (w.catalog.addDatabase name)
  | .removeDatabase name => w.withCatalog (w.catalog.removeDatabase name)
  | .findFragment db name => (w.catalog.fragment db name, w)
  | .addFragment f => w.withCatalog ((w.catalog.addFragment f).map ((), ·))
  | .removeFragment db name => w.withCatalog (w.catalog.removeFragment db name)
  | .flush => w.replacedBy w.flush
  | .putDatabase db => w.replacedBy (w.putDatabase db)
  | .deleteDatabase db => w.replacedBy (w.deleteDatabase db)
  | .putFragment db f => w.putFragment db f
  | .getFragment db name => (w.getFragment db name, w)
  | .deleteFragment db name => w.replacedBy (w.deleteFragment db name)
  | .readFile route => (World.readRoute w.disk route, w)

end Call

end FragmentEngine
