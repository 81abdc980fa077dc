import FragmentEngine.Fragment.Image
import FragmentEngine.Store.Disk
import FragmentEngine.Store.Name
/-!
# Fragment stores

Where the contents of fragments are kept: in memory, or on a disk with a directory for each database and an
image for each fragment. Databases hold fragments by name, and putting a fragment replaces one of its name.
-/

namespace FragmentEngine

/-- Databases kept in memory, with their fragments by name. -/
abbrev MemoryStore := Std.ExtTreeMap String (Std.ExtTreeMap String Fragment compare) compare

namespace MemoryStore

def putDatabase (m : MemoryStore) (db : String) : Except Error MemoryStore := do
  Name.check db
  return if db ∈ m then m else m.insert db ∅

def deleteDatabase (m : MemoryStore) (db : String) : Except Error MemoryStore :=
  if db ∈ m then .ok (m.erase db) else .error (.store (.databaseNotStored db))

def putFragment (m : MemoryStore) (db : String) (f : Fragment) : Except Error MemoryStore := do
  Name.check f.name
  match m[db]? with
  | none => throw (.store (.databaseNotStored db))
  | some fragments => return m.insert db (fragments.insert f.name f)

/-- The fragments of a database, none if it is not stored. -/
def fragments (m : MemoryStore) (db : String) : Std.ExtTreeMap String Fragment compare := m.getD db ∅

def getFragment (m : MemoryStore) (db name : String) : Except Error Fragment :=
  match (m.fragments db)[name]? with
  | some f => .ok f
  | none => .error (.store (.fragmentNotStored db name))

def deleteFragment (m : MemoryStore) (db name : String) : Except Error MemoryStore :=
  if name ∈ m.fragments db then .ok (m.insert db ((m.fragments db).erase name))
  else .error (.store (.fragmentNotStored db name))

end MemoryStore

/-! ## Files -/

/-- The directory in which databases are kept as directories. -/
structure FileStore where
  root : Path
  deriving DecidableEq

namespace FileStore

/-- The outcome of a disk operation, in which a missing file means that something is not stored. -/
def orElse {α : Type} (missing : StoreError) : Except DiskError α → Except Error α
  | .ok a => .ok a
  | .error .notFound => .error (.store missing)
  | .error e => .error (.disk e)

/-- The outcome of a disk operation. -/
def lift {α : Type} : Except DiskError α → Except Error α
  | .ok a => .ok a
  | .error e => .error (.disk e)

def databasePath (s : FileStore) (db : String) : Except Error Path := do
  Name.check db
  return s.root ++ [db]

/-- The path of a file that belongs to a fragment. -/
def fragmentPath (s : FileStore) (db name ending : String) : Except Error Path := do
  Name.check name
  return (← s.databasePath db) ++ [s!"{name}.{ending}"]

def putDatabase (s : FileStore) (d : Disk) (db : String) : Except Error Disk := do
  Name.check db
  lift (d.addDirectory s.root db)

def deleteDatabase (s : FileStore) (d : Disk) (db : String) : Except Error Disk := do
  orElse (.databaseNotStored db) (d.removeDirectory (← s.databasePath db))

/-- Writes an image beside the one it is to replace. -/
def writeDraft (s : FileStore) (d : Disk) (db : String) (f : Fragment) : Except Error Disk := do
  if !d.isDirectory (← s.databasePath db) then throw (.store (.databaseNotStored db))
  lift (d.write (← s.fragmentPath db f.name "tmp") (Image.ofFragment f))

/-- Moves a new image into place. -/
def moveDraft (s : FileStore) (d : Disk) (db name : String) : Except Error Disk := do
  lift (d.rename (← s.fragmentPath db name "tmp") (← s.fragmentPath db name "frag"))

/-- Writes an image and then moves it into place. An image that cannot be moved stays where it was written. -/
def putFragment (s : FileStore) (d : Disk) (db : String) (f : Fragment) : Except Error Unit × Disk :=
  match s.writeDraft d db f with
  | .error e => (.error e, d)
  | .ok d =>
    match s.moveDraft d db f.name with
    | .error e => (.error e, d)
    | .ok d => (.ok (), d)

def getFragment (s : FileStore) (d : Disk) (db name : String) : Except Error Fragment := do
  let image ← orElse (.fragmentNotStored db name) (d.read (← s.fragmentPath db name "frag"))
  Image.toFragment image

def deleteFragment (s : FileStore) (d : Disk) (db name : String) : Except Error Disk := do
  orElse (.fragmentNotStored db name) (d.remove (← s.fragmentPath db name "frag"))

end FileStore

end FragmentEngine
