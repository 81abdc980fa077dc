import FragmentEngine.Catalog.Entry
/-!
# Catalogs

The databases and fragments of an engine. A database counts the rows and bytes of its fragments. A failed
operation changes nothing.
-/

namespace FragmentEngine

structure Catalog where
  databases : Std.ExtTreeMap String DatabaseEntry compare
  /-- The fragments of all databases, under `db.name`. -/
  fragments : Std.ExtTreeMap String FragmentEntry compare

namespace Catalog

def empty : Catalog := ⟨∅, ∅⟩

/-- What a fragment is filed under. -/
def key (db name : String) : String := s!"{db}.{name}"

/-! ## Databases -/

def database (c : Catalog) (name : String) : Except Error DatabaseEntry :=
  match c.databases[name]? with
  | some d => .ok d
  | none => .error (.catalog (.databaseNotFound name))

/-- Adds a database without fragments. -/
def addDatabase (c : Catalog) (name : String) : Except Error (DatabaseEntry × Catalog) :=
  if name ∈ c.databases then .error (.catalog (.alreadyExists name))
  else
    let d := DatabaseEntry.empty name
    .ok (d, { c with databases := c.databases.insert name d })

/-- Removes a database and the fragments it lists. -/
def removeDatabase (c : Catalog) (name : String) : Except Error (DatabaseEntry × Catalog) := do
  let d ← c.database name
  return (d, ⟨c.databases.erase name, d.fragments.foldl (fun fs f => fs.erase (key name f)) c.fragments⟩)

/-- Replaces the entry of a database by another of the same name. -/
def updateDatabase (c : Catalog) (d : DatabaseEntry) : Except Error Catalog := do
  discard (c.database d.name)
  return { c with databases := c.databases.insert d.name d }

/-- The names of the databases in order. -/
def databaseNames (c : Catalog) : List String := c.databases.keys

/-! ## Fragments -/

def fragment (c : Catalog) (db name : String) : Except Error FragmentEntry := do
  discard (c.database db)
  match c.fragments[key db name]? with
  | some f => return f
  | none => throw (.catalog (.fragmentNotFound (key db name)))

/-- Adds a fragment to its database. -/
def addFragment (c : Catalog) (f : FragmentEntry) : Except Error Catalog :=
  let k := key f.db f.name
  if k ∈ c.fragments then .error (.catalog (.alreadyExists k))
  else do
    let d ← c.database f.db
    let d :=
      { d with
        fragments := d.fragments ++ [f.name]
        rowCount := d.rowCount + f.rowCount
        size := d.size + f.size }
    return ⟨c.databases.insert f.db d, c.fragments.insert k f⟩

/-- Removes a fragment, and takes it off the list and the counts of its database if there is one. -/
def removeFragment (c : Catalog) (db name : String) : Except Error (FragmentEntry × Catalog) :=
  match c.fragments[key db name]? with
  | none => .error (.catalog (.fragmentNotFound (key db name)))
  | some f =>
    let fragments := c.fragments.erase (key db name)
    match c.databases[db]? with
    | none => .ok (f, { c with fragments := fragments })
    | some d =>
      let d :=
        { d with
          fragments := d.fragments.filter (· ≠ name)
          rowCount := d.rowCount - f.rowCount
          size := d.size - f.size }
      .ok (f, ⟨c.databases.insert db d, fragments⟩)

end Catalog

end FragmentEngine
