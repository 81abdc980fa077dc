import FragmentEngine.Proofs.Catalog
import FragmentEngine.Proofs.Engine.Protocol
/-!
# Queries in memory

What a query that runs by itself does to an engine in memory: nothing, or one whole change of the catalog and the
store together. A query that fails has changed nothing.
-/

namespace FragmentEngine

/-! ## Worlds in memory -/

/-- A world that keeps everything in memory. -/
def World.memory (d : Disk) (c : Catalog) (m : MemoryStore) : World := ⟨d, c, none, .memory m⟩

variable {d : Disk} {c c' c₀ : Catalog} {m m' m₀ : MemoryStore} {db name : String}

namespace Call

/-- The answer of a call in memory, with the catalog and the store after it. -/
def inMemory (d : Disk) (c : Catalog) (m : MemoryStore) : (call : Call) →
    Except Error (call.Reply × Catalog × MemoryStore)
  | .listDatabases => .ok (c.databaseNames, c, m)
  | .findDatabase name => (c.database name).map (·, c, m)
  | .addDatabase name => (c.addDatabase name).map fun (e, c') => (e, c', m)
  | .removeDatabase name => (c.removeDatabase name).map fun (e, c') => (e, c', m)
  | .findFragment db name => (c.fragment db name).map (·, c, m)
  | .addFragment f => (c.addFragment f).map ((), ·, m)
  | .removeFragment db name => (c.removeFragment db name).map fun (f, c') => (f, c', m)
  | .flush => .ok ((), c, m)
  | .putDatabase db => (m.putDatabase db).map ((), c, ·)
  | .deleteDatabase db => (m.deleteDatabase db).map ((), c, ·)
  | .putFragment db f => (m.putFragment db f).map ((), c, ·)
  | .getFragment db name => (m.getFragment db name).map (·, c, m)
  | .deleteFragment db name => (m.deleteFragment db name).map ((), c, ·)
  | .readFile route => (World.readRoute d route).map (·, c, m)

/-- A failed call changes nothing. -/
theorem perform_memory (d : Disk) (c : Catalog) (m : MemoryStore) (call : Call) :
    call.perform (.memory d c m) = match call.inMemory d c m with
      | .ok (a, c', m') => (.ok a, .memory d c' m')
      | .error e => (.error e, .memory d c m) := by
  unfold perform inMemory World.memory
  cases call with
  | listDatabases => rfl
  | flush => rfl
  | findDatabase name => cases h : c.database name <;> simp [h, Except.map]
  | addDatabase name => cases h : c.addDatabase name <;> simp [h, Except.map, World.withCatalog]
  | removeDatabase name => cases h : c.removeDatabase name <;> simp [h, Except.map, World.withCatalog]
  | findFragment db name => cases h : c.fragment db name <;> simp [h, Except.map]
  | addFragment f => cases h : c.addFragment f <;> simp [h, Except.map, World.withCatalog]
  | removeFragment db name => cases h : c.removeFragment db name <;> simp [h, Except.map, World.withCatalog]
  | putDatabase db => cases h : m.putDatabase db <;> simp [h, Except.map, World.putDatabase, World.replacedBy]
  | deleteDatabase db =>
    cases h : m.deleteDatabase db <;> simp [h, Except.map, World.deleteDatabase, World.replacedBy]
  | putFragment db f => cases h : m.putFragment db f <;> simp [h, Except.map, World.putFragment]
  | getFragment db name => cases h : m.getFragment db name <;> simp [h, Except.map, World.getFragment]
  | deleteFragment db name =>
    cases h : m.deleteFragment db name <;> simp [h, Except.map, World.deleteFragment, World.replacedBy]
  | readFile route => cases h : World.readRoute d route <;> simp [h, Except.map]

theorem inMemory_read {call : Call} {a : call.Reply} (hr : call.IsRead)
    (h : call.inMemory d c m = .ok (a, c', m')) : c' = c ∧ m' = m := by
  cases call with
  | listDatabases =>
    cases h
    exact ⟨rfl, rfl⟩
  | findDatabase | findFragment | getFragment | readFile =>
    obtain ⟨x, -, h⟩ := Outcome.map_eq_ok.1 h
    cases h
    exact ⟨rfl, rfl⟩
  | _ => exact hr.elim

end Call

/-! ## Calls of a query -/

@[simp] theorem FragmentEntry.describe_db (db : String) (device : Option String) (f : Fragment) :
    (describe db device f).db = db := rfl

@[simp] theorem FragmentEntry.describe_name (db : String) (device : Option String) (f : Fragment) :
    (describe db device f).name = f.name := rfl

/-- What a call that is allowed in a phase has done when it succeeds. -/
inductive Advance (c : Catalog) (m : MemoryStore) : Phase → Call → Phase → Catalog → MemoryStore → Prop
  | read (call : Call) : call.IsRead → Advance c m .start call .start c m
  | addDatabase {d : DatabaseEntry} {c' : Catalog} (db : String) : Name.check db = .ok () →
      c.addDatabase db = .ok (d, c') → Advance c m .start (.addDatabase db) (.creating db) c' m
  | putDatabase {m' : MemoryStore} (db : String) : m.putDatabase db = .ok m' →
      Advance c m (.creating db) (.putDatabase db) .finished c m'
  | undoDatabase {d : DatabaseEntry} {c' : Catalog} (db : String) : c.removeDatabase db = .ok (d, c') →
      Advance c m (.uncreating db) (.removeDatabase db) .start c' m
  | chooseDatabase {d : DatabaseEntry} (db : String) : c.database db = .ok d →
      Advance c m .start (.findDatabase db) (.foundDatabase db) c m
  | deleteDatabase {m' : MemoryStore} (db : String) : m.deleteDatabase db = .ok m' →
      Advance c m (.foundDatabase db) (.deleteDatabase db) (.dropping db) c m'
  | removeDatabase {d : DatabaseEntry} {c' : Catalog} (db : String) : c.removeDatabase db = .ok (d, c') →
      Advance c m (.dropping db) (.removeDatabase db) .finished c' m
  | addFragment {c' : Catalog} (db : String) (device : Option String) (f : Fragment) :
      c.addFragment (FragmentEntry.describe db device f) = .ok c' →
      Advance c m .start (.addFragment (FragmentEntry.describe db device f)) (.claimed db device f) c' m
  | putFragment {m' : MemoryStore} (db : String) (device : Option String) (f : Fragment) :
      m.putFragment db f = .ok m' → Advance c m (.claimed db device f) (.putFragment db f) .finished c m'
  | releaseFragment {e : FragmentEntry} {c' : Catalog} (db : String) (device : Option String) (f : Fragment) :
      c.removeFragment db f.name = .ok (e, c') →
      Advance c m (.releasing db device f) (.removeFragment db f.name) .start c' m
  | chooseFragment {f : FragmentEntry} (db name : String) : c.fragment db name = .ok f →
      Advance c m .start (.findFragment db name) (.foundFragment db name) c m
  | deleteFragment {m' : MemoryStore} (db name : String) : m.deleteFragment db name = .ok m' →
      Advance c m (.foundFragment db name) (.deleteFragment db name) (.removing db name) c m'
  | removeFragment {e : FragmentEntry} {c' : Catalog} (db name : String) :
      c.removeFragment db name = .ok (e, c') →
      Advance c m (.removing db name) (.removeFragment db name) .finished c' m
  | flush : Advance c m .finished .flush .finished c m

variable {φ ψ χ : Phase} {call : Call}

theorem Phase.Step.advance {a : call.Reply} (hs : φ.Step call ψ χ)
    (h : call.inMemory d c m = .ok (a, c', m')) : Advance c m φ call ψ c' m' := by
  cases hs with
  | read call hr =>
    obtain ⟨rfl, rfl⟩ := Call.inMemory_read hr h
    exact .read call hr
  | flush =>
    cases h
    exact .flush
  | addDatabase db hdb =>
    obtain ⟨r, hr, h⟩ := Outcome.map_eq_ok.1 h
    cases h
    exact .addDatabase db hdb hr
  | _ =>
    obtain ⟨r, hr, h⟩ := Outcome.map_eq_ok.1 h
    cases h
    first
      | exact .putDatabase _ hr
      | exact .undoDatabase _ hr
      | exact .chooseDatabase _ hr
      | exact .deleteDatabase _ hr
      | exact .removeDatabase _ hr
      | exact .addFragment _ _ _ hr
      | exact .putFragment _ _ _ hr
      | exact .releaseFragment _ _ _ hr
      | exact .chooseFragment _ _ hr
      | exact .deleteFragment _ _ hr
      | exact .removeFragment _ _ hr

/-! ## Whole changes -/

/-- A change of the catalog and the store together, from one state to another. -/
inductive Effect (c : Catalog) (m : MemoryStore) : Catalog → MemoryStore → Prop
  | created {d : DatabaseEntry} {c' : Catalog} {m' : MemoryStore} (db : String) : Name.check db = .ok () →
      c.addDatabase db = .ok (d, c') → m.putDatabase db = .ok m' → Effect c m c' m'
  | dropped {d : DatabaseEntry} {c' : Catalog} {m' : MemoryStore} (db : String) :
      c.removeDatabase db = .ok (d, c') → m.deleteDatabase db = .ok m' → Effect c m c' m'
  | stored {c' : Catalog} {m' : MemoryStore} (db : String) (device : Option String) (f : Fragment) :
      c.addFragment (FragmentEntry.describe db device f) = .ok c' → m.putFragment db f = .ok m' → Effect c m c' m'
  | removed {f g : FragmentEntry} {c' : Catalog} {m' : MemoryStore} (db name : String) :
      c.fragment db name = .ok f → c.removeFragment db name = .ok (g, c') → m.deleteFragment db name = .ok m' →
      Effect c m c' m'

/-- Where a query that runs by itself has taken the catalog and the store when it is in a phase. No such query
fails to complete or take back its change. -/
inductive Reached (c₀ : Catalog) (m₀ : MemoryStore) : Phase → Catalog → MemoryStore → Prop
  | start : Reached c₀ m₀ .start c₀ m₀
  | foundDatabase {db : String} {d : DatabaseEntry} : c₀.database db = .ok d →
      Reached c₀ m₀ (.foundDatabase db) c₀ m₀
  | foundFragment {db name : String} {f : FragmentEntry} : c₀.fragment db name = .ok f →
      Reached c₀ m₀ (.foundFragment db name) c₀ m₀
  | creating {db : String} {d : DatabaseEntry} {c : Catalog} : Name.check db = .ok () →
      c₀.addDatabase db = .ok (d, c) → Reached c₀ m₀ (.creating db) c m₀
  | uncreating {db : String} {d : DatabaseEntry} {c : Catalog} : c₀.addDatabase db = .ok (d, c) →
      Reached c₀ m₀ (.uncreating db) c m₀
  | dropping {db : String} {d : DatabaseEntry} {m : MemoryStore} : c₀.database db = .ok d →
      m₀.deleteDatabase db = .ok m → Reached c₀ m₀ (.dropping db) c₀ m
  | claimed {db : String} {device : Option String} {f : Fragment} {c : Catalog} :
      c₀.addFragment (FragmentEntry.describe db device f) = .ok c → Reached c₀ m₀ (.claimed db device f) c m₀
  | releasing {db : String} {device : Option String} {f : Fragment} {c : Catalog} :
      c₀.addFragment (FragmentEntry.describe db device f) = .ok c → Reached c₀ m₀ (.releasing db device f) c m₀
  | removing {db name : String} {f : FragmentEntry} {m : MemoryStore} : c₀.fragment db name = .ok f →
      m₀.deleteFragment db name = .ok m → Reached c₀ m₀ (.removing db name) c₀ m
  | finished {c : Catalog} {m : MemoryStore} : Effect c₀ m₀ c m → Reached c₀ m₀ .finished c m

theorem Reached.ok (hl : c₀.Listed) (h : Reached c₀ m₀ φ c m) (ha : Advance c m φ call ψ c' m') :
    Reached c₀ m₀ ψ c' m' := by
  cases ha with
  | read => exact h
  | flush => exact h
  | addDatabase db hdb hc =>
    cases h
    exact .creating hdb hc
  | putDatabase db hm =>
    cases h with
    | creating hdb hc => exact .finished (.created db hdb hc hm)
  | undoDatabase db hc =>
    cases h with
    | uncreating hadded =>
      rw [Catalog.removeDatabase_addDatabase hadded] at hc
      cases hc
      exact .start
  | chooseDatabase db hd =>
    cases h
    exact .foundDatabase hd
  | deleteDatabase db hm =>
    cases h with
    | foundDatabase hd => exact .dropping hd hm
  | removeDatabase db hc =>
    cases h with
    | dropping hd hm => exact .finished (.dropped db hc hm)
  | addFragment db device f hc =>
    cases h
    exact .claimed hc
  | putFragment db device f hm =>
    cases h with
    | claimed hc => exact .finished (.stored db device f hc hm)
  | releaseFragment db device f hc =>
    cases h with
    | releasing hadded =>
      have hback := Catalog.removeFragment_addFragment hl hadded
      rw [FragmentEntry.describe_db, FragmentEntry.describe_name, hc] at hback
      cases hback
      exact .start
  | chooseFragment db name hf =>
    cases h
    exact .foundFragment hf
  | deleteFragment db name hm =>
    cases h with
    | foundFragment hf => exact .removing hf hm
  | removeFragment db name hc =>
    cases h with
    | removing hf hm => exact .finished (.removed db name hf hc hm)

/-- A call that is allowed and fails leads on to the phase after a failure. A removal does not fail, since what is
removed has been found or added before. -/
theorem Reached.error {e : Error} (hl : c₀.Listed) (h : Reached c₀ m₀ φ c m) (hs : φ.Step call ψ χ)
    (hcall : call.inMemory d c m = .error e) : Reached c₀ m₀ χ c m := by
  cases hs with
  | read | addDatabase | chooseDatabase | addFragment | chooseFragment => exact h
  | putDatabase db =>
    cases h with
    | creating _ hc => exact .uncreating hc
  | undoDatabase db =>
    cases h with
    | uncreating hc =>
      have he := Outcome.map_eq_error.1 hcall
      rw [Catalog.removeDatabase_addDatabase hc] at he
      cases he
  | deleteDatabase db =>
    cases h
    exact .start
  | removeDatabase db =>
    cases h with
    | dropping hc hm =>
      have he := Outcome.map_eq_error.1 hcall
      obtain ⟨c', hok⟩ := Catalog.removeDatabase_found hc
      rw [hok] at he
      cases he
  | putFragment db device f =>
    cases h with
    | claimed hc => exact .releasing hc
  | releaseFragment db device f =>
    cases h with
    | releasing hc =>
      have he := Outcome.map_eq_error.1 hcall
      have hback := Catalog.removeFragment_addFragment hl hc
      rw [FragmentEntry.describe_db, FragmentEntry.describe_name, he] at hback
      cases hback
  | deleteFragment db name =>
    cases h
    exact .start
  | removeFragment db name =>
    cases h with
    | removing hc hm =>
      have he := Outcome.map_eq_error.1 hcall
      obtain ⟨c', hok⟩ := Catalog.removeFragment_found hc
      rw [hok] at he
      cases he
  | flush => cases hcall

/-- A program that follows the protocol, run by itself, ends where its last phase says. -/
theorem Program.Follows.run_memory {α : Type} {post : Phase → α → Prop} {p : Program α} (hl : c₀.Listed)
    (hp : p.Follows post φ) (h : Reached c₀ m₀ φ c m) :
    ∃ ψ c' m', (p.run (.memory d c m)).2 = .memory d c' m' ∧ Reached c₀ m₀ ψ c' m' ∧
      post ψ (p.run (.memory d c m)).1 := by
  -- Each call takes the state and the phase one step further, and `Reached` says that they still fit.
  induction p generalizing φ c m with
  | done a => exact ⟨φ, c, m, rfl, h, hp⟩
  | call call next ih =>
    obtain ⟨ψ, χ, hs, hok, herror⟩ := hp
    unfold Program.run
    rw [Call.perform_memory]
    cases hcall : call.inMemory d c m with
    | ok r =>
      obtain ⟨a, c', m'⟩ := r
      exact ih (.ok a) (hok a) (h.ok hl (hs.advance hcall))
    | error e => exact ih (.error e) (herror e) (h.error hl hs hcall)

/-! ## Queries of a session -/

namespace Session

/-- A query leaves the catalog and the store as they are, or succeeds and has made one whole change. -/
theorem execute_effect (hl : c.Listed) (s : Session) (query : String) (args : List Argument) :
    ∃ c' m', ((s.execute query args).run (.memory d c m)).2 = .memory d c' m' ∧
      ((c' = c ∧ m' = m) ∨ Effect c m c' m') := by
  have hstart : Reached c m .start c m := .start
  obtain ⟨ψ, c', m', hw, h, hsettles⟩ := (s.execute_follows query args).run_memory (d := d) hl hstart
  refine ⟨c', m', hw, ?_⟩
  have hends := hsettles.ends
  cases h with
  | start => exact .inl ⟨rfl, rfl⟩
  | finished heffect => exact .inr heffect
  | _ => cases hends

/-- A failed query leaves everything in memory as it is. -/
theorem execute_error (hl : c.Listed) {s : Session} {query : String} {args : List Argument} {e : Error}
    (h : ((s.execute query args).run (.memory d c m)).1.1 = .error e) :
    ((s.execute query args).run (.memory d c m)).2 = .memory d c m := by
  have hstart : Reached c m .start c m := .start
  obtain ⟨ψ, c', m', hw, hreached, hsettles⟩ := (s.execute_follows query args).run_memory (d := d) hl hstart
  have hends := hsettles.ends
  rw [h] at hends
  rw [hw]
  cases hreached with
  | start => rfl
  | _ => cases hends

variable {s s' : Session} {query : String} {args : List Argument} {answer : Except Error QueryResult} {w' : World}

/-- A failed query changes nothing, except that a failed insert discards the statement; a select changes nothing
even if it succeeds. The store may hold anything, and of the catalog only that its lists name fragments that have
entries is needed. -/
theorem execute_failure (hl : c.Listed)
    (h : (s.execute query args).run (.memory d c m) = ((answer, s'), w')) :
    (∀ e, answer = .error e →
      w' = .memory d c m ∧
      (Dispatches query .insert ∨ Dispatches query .multiInsert → s' = { s with statement := none }) ∧
      (¬Dispatches query .insert → ¬Dispatches query .multiInsert → s' = s)) ∧
    (Dispatches query .select → w' = .memory d c m ∧ s' = s) := by
  have hstart : Reached c m .start c m := .start
  obtain ⟨ψ, c', m', hw, hreached, hsettles⟩ := (s.execute_follows query args).run_memory (d := d) hl hstart
  rw [h] at hw hsettles
  refine ⟨fun e he => ⟨?_, hsettles.discards e he, hsettles.keeps e he⟩, fun hselect => ?_⟩
  -- A failed query ends in `start` or `failed`, and a query that runs by itself does not reach `failed`.
  · have hends := hsettles.ends
    simp only at hw he hends
    rw [he] at hends
    rw [hw]
    cases hreached with
    | start => rfl
    | _ => cases hends
  · obtain ⟨rfl, hsame⟩ := hsettles.selects hselect
    cases hreached
    exact ⟨hw, hsame⟩

/-- A catalog of one database that lists one fragment. -/
def oneFragment : Catalog where
  databases := (∅ : Std.ExtTreeMap String DatabaseEntry compare).insert "db" ⟨"db", ["old"], 0, 0⟩
  fragments := (∅ : Std.ExtTreeMap String FragmentEntry compare).insert "db.old"
    (FragmentEntry.describe "db" none (.empty "old" ⟨[]⟩))

theorem oneFragment_listed : oneFragment.Listed := by
  intro db d hd name hname
  simp only [oneFragment, Std.ExtTreeMap.getElem?_insert] at hd
  split at hd
  · rename_i he
    obtain rfl : "db" = db := by simpa using he
    cases hd
    obtain rfl : name = "old" := by simpa using hname
    decide +kernel
  · simp at hd

/-- A query that stores a second fragment, at once and empty. -/
def storing : String := "operation=create_frag;frag_name=db.new;field=id;field_type=long;run=0"

/-- If the store has lost the database, the entry that the query has added is taken out again. -/
theorem execute_failure_lostDatabase :
    oneFragment.Listed ∧
    (((new (.builtin 0)).execute storing []).run (.memory .empty oneFragment ∅)).1.1 =
      .error (.store (.databaseNotStored "db")) ∧
    (((new (.builtin 0)).execute storing []).run (.memory .empty oneFragment ∅)).2 =
      .memory .empty oneFragment ∅ := by
  have hfails : (((new (.builtin 0)).execute storing []).run (.memory .empty oneFragment ∅)).1.1 =
      .error (.store (.databaseNotStored "db")) := by with_unfolding_all rfl
  exact ⟨oneFragment_listed, hfails, ((execute_failure oneFragment_listed rfl).1 _ hfails).1⟩

end Session

end FragmentEngine
