import FragmentEngine.Proofs.Catalog
import FragmentEngine.Proofs.Engine.Protocol
import FragmentEngine.Proofs.Insert.Statement
/-!
# Runs of queries

What a query answers and leaves behind when it runs by itself, in any world.
-/

namespace FragmentEngine

namespace Query

variable {α β : Type} {q : Query α} {f : α → Query β} {w w' : World} {a : α} {e : Error}

/-- The outcome of a query and the world after it. -/
def runIn (q : Query α) (w : World) : Except Error α × World := Program.run w (ExceptT.run q)

theorem runIn_bind (q : Query α) (f : α → Query β) (w : World) : (q >>= f).runIn w =
    match q.runIn w with
    | (.ok a, w) => (f a).runIn w
    | (.error e, w) => (.error e, w) := by
  unfold runIn
  rw [ExceptT.run_bind, Program.run_bind]
  rcases Program.run w (ExceptT.run q) with ⟨e | a, w⟩ <;> rfl

@[simp] theorem runIn_pure (a : α) (w : World) : (pure a : Query α).runIn w = (.ok a, w) := rfl

@[simp] theorem runIn_throw (e : Error) (w : World) : (throw e : Query α).runIn w = (.error e, w) := rfl

@[simp] theorem runIn_lift (x : Except Error α) (w : World) : (liftM x : Query α).runIn w = (x, w) := by
  cases x <;> rfl

@[simp] theorem runIn_make (c : Call) (w : World) : c.make.runIn w = c.perform w := rfl

@[simp] theorem runIn_attempt (c : Call) (w : World) :
    c.attempt.runIn w = (.ok (c.perform w).1, (c.perform w).2) := rfl

theorem runIn_lift_eq_ok {x : Except Error α} : (liftM x : Query α).runIn w = (.ok a, w') ↔ x = .ok a ∧ w = w' := by
  rw [runIn_lift, Prod.mk.injEq]

theorem runIn_bind_ok (h : q.runIn w = (.ok a, w')) : (q >>= f).runIn w = (f a).runIn w' := by
  rw [runIn_bind, h]

theorem runIn_bind_error (h : q.runIn w = (.error e, w')) : (q >>= f).runIn w = (.error e, w') := by
  rw [runIn_bind, h]

theorem runIn_bind_eq_ok {b : β} (h : (q >>= f).runIn w = (.ok b, w')) :
    ∃ a v, q.runIn w = (.ok a, v) ∧ (f a).runIn v = (.ok b, w') := by
  rw [runIn_bind] at h
  split at h
  · rename_i a v hq
    exact ⟨a, v, hq, h⟩
  · cases h

end Query

namespace Request

open Query

variable {r : Request} {w w' : World} {db name : String} {e : Error}

/-! ## Databases -/

/-- A database that is there already is not made again. -/
theorem createDatabase_known (hname : r.params.require "db_name" = .ok db)
    (hdb : db ∈ w.catalog.databases) : ∃ e, r.createDatabase.runIn w = (.error e, w) := by
  unfold createDatabase
  simp only [runIn_bind, runIn_lift, hname, discard_bind]
  cases Name.check db with
  | error e => exact ⟨e, rfl⟩
  | ok => simp [runIn_make (.addDatabase db), Call.perform, Catalog.addDatabase, World.withCatalog, hdb]

/-! ## Fragments -/

theorem checkNew_runIn (db name : String) (w : World) : (checkNew db name).runIn w =
    (if db ∈ w.catalog.databases then
      if Catalog.key db name ∈ w.catalog.fragments then .error (.catalog (.alreadyExists (Catalog.key db name)))
      else .ok ()
    else .error (.catalog (.databaseNotFound db)), w) := by
  unfold checkNew
  simp only [runIn_bind, discard_bind, runIn_make (.findDatabase db), runIn_attempt (.findFragment db name),
    Call.perform]
  by_cases hdb : db ∈ w.catalog.databases
  · obtain ⟨d, hd⟩ := Maps.get_of_mem hdb
    rw [Catalog.database_eq_ok.2 hd, if_pos hdb]
    by_cases hk : Catalog.key db name ∈ w.catalog.fragments
    · obtain ⟨f, hf⟩ := Catalog.has_iff.1 ⟨hdb, hk⟩
      simp [hf, hk]
    · simp [Catalog.fragment_absent hdb hk, hk]
  · simp [Catalog.database, hdb]

theorem checkNew_eq_ok : (checkNew db name).runIn w = (.ok (), w') ↔
    db ∈ w.catalog.databases ∧ Catalog.key db name ∉ w.catalog.fragments ∧ w = w' := by
  rw [checkNew_runIn]
  by_cases hdb : db ∈ w.catalog.databases
  · by_cases hk : Catalog.key db name ∈ w.catalog.fragments <;> simp [hdb, hk]
  · simp [hdb]

/-- A fragment is not stored under a name that is taken. -/
theorem store_taken {f : Fragment} {device : Option String} (hk : Catalog.key db f.name ∈ w.catalog.fragments) :
    (store f db device).runIn w = (.error (.catalog (.alreadyExists (Catalog.key db f.name))), w) := by
  unfold store
  refine runIn_bind_error (q := (Call.addFragment (.describe db device f)).make) ?_
  have hadd : w.catalog.addFragment (.describe db device f) =
      .error (.catalog (.alreadyExists (Catalog.key db f.name))) := if_pos hk
  rw [runIn_make]
  simp [Call.perform, hadd, World.withCatalog, Except.map]

/-! ## Statements -/

theorem createFragment_open {s : Statement} : (r.createFragment (some s)).runIn w =
    (.error (.exec (.statementOpen s.db s.fragment.name)), w) := rfl

/-- What a query has done that leaves a statement open: it has looked the database up. -/
theorem createFragment_opened {statement : Option Statement} {result : QueryResult} {s : Statement}
    (h : (r.createFragment statement).runIn w = (.ok (result, some s), w')) :
    s.db ∈ w.catalog.databases ∧ w = w' := by
  cases statement with
  | some s₀ =>
    rw [createFragment_open] at h
    cases h
  | none =>
    unfold createFragment at h
    obtain ⟨⟨db, name⟩, v, htarget, h⟩ := runIn_bind_eq_ok h
    obtain ⟨-, rfl⟩ := runIn_lift_eq_ok.1 htarget
    dsimp only at h
    obtain ⟨⟨⟩, v, hcheck, h⟩ := runIn_bind_eq_ok h
    obtain ⟨hdb, -, rfl⟩ := checkNew_eq_ok.1 hcheck
    obtain ⟨schema, v, hschema, h⟩ := runIn_bind_eq_ok h
    obtain ⟨-, rfl⟩ := runIn_lift_eq_ok.1 hschema
    obtain ⟨count?, v, hcount, h⟩ := runIn_bind_eq_ok h
    obtain ⟨-, rfl⟩ := runIn_lift_eq_ok.1 hcount
    split at h
    · obtain ⟨⟨⟩, v, -, h⟩ := runIn_bind_eq_ok h
      cases h
    · cases h
      exact ⟨hdb, rfl⟩

/-- A statement is opened for a new fragment of a database that is there. -/
theorem createFragment_opens {schema : Schema} {runs : Nat} (htarget : r.target = .ok (db, name))
    (hdb : db ∈ w.catalog.databases) (hnew : Catalog.key db name ∉ w.catalog.fragments)
    (hschema : r.newSchema = .ok schema) (hruns : r.params.count? "run" = .ok (some runs)) (hpos : runs ≠ 0) :
    ∃ result, (r.createFragment none).runIn w =
      (.ok (result, some (.start db name (r.params.get? "device") schema runs)), w) := by
  unfold createFragment
  rw [htarget, hschema, hruns]
  simp only [runIn_bind, runIn_lift, checkNew_eq_ok.2 ⟨hdb, hnew, rfl⟩]
  simp [hpos]

/-! ## Inserts -/

section

variable {several : Bool} {s t : Statement} {records : List Record}

theorem insert_refused (hrecords : r.insertedRecords several s.fragment.schema = .error e) :
    (r.insert several (some s)).runIn w = (.error e, w) := by
  unfold insert
  dsimp only
  rw [hrecords]
  exact runIn_bind_error (runIn_lift _ w)

theorem insert_failed (hrecords : r.insertedRecords several s.fragment.schema = .ok records)
    (happend : s.append records (r.params.flag "final_statement") = (.error e, t)) :
    (r.insert several (some s)).runIn w = (.error e, w) := by
  unfold insert
  dsimp only
  rw [hrecords, runIn_bind_ok (runIn_lift _ w)]
  rw [happend]
  exact runIn_bind_error (runIn_lift _ w)

/-- A run that is not the last changes the statement alone. -/
theorem insert_buffered (hrecords : r.insertedRecords several s.fragment.schema = .ok records)
    (happend : s.append records (r.params.flag "final_statement") = (.ok false, t)) :
    ∃ result, (r.insert several (some s)).runIn w = (.ok (result, some t), w) := by
  unfold insert
  dsimp only
  rw [hrecords, runIn_bind_ok (runIn_lift _ w)]
  rw [happend, runIn_bind_ok (runIn_lift _ w)]
  exact ⟨_, rfl⟩

/-- The last run stores the fragment, and leaves no statement if that succeeds. -/
theorem insert_last (hrecords : r.insertedRecords several s.fragment.schema = .ok records)
    (happend : s.append records (r.params.flag "final_statement") = (.ok true, t)) :
    (r.insert several (some s)).runIn w =
      (((store t.fragment t.db t.device).runIn w).1.map fun _ => (.written records.length
          s!"Fragment '{t.db}.{t.fragment.name}' stored with {t.fragment.rowCount} row(s)", none),
        ((store t.fragment t.db t.device).runIn w).2) := by
  unfold insert
  dsimp only
  rw [hrecords, runIn_bind_ok (runIn_lift _ w)]
  rw [happend, runIn_bind_ok (runIn_lift _ w), if_pos rfl, runIn_bind]
  rcases (store t.fragment t.db t.device).runIn w with ⟨e | a, v⟩ <;> rfl

end

/-- A request that adds to the statement leaves it open for the same place, or ends it. -/
theorem insert_place {several : Bool} {statement : Option Statement} {result : QueryResult} {t : Statement}
    (h : (r.insert several statement).runIn w = (.ok (result, some t), w')) :
    ∃ s, statement = some s ∧ t.place = s.place := by
  cases statement with
  | none => cases h
  | some s =>
    refine ⟨s, rfl, ?_⟩
    cases hrecords : r.insertedRecords several s.fragment.schema with
    | error e =>
      rw [insert_refused hrecords] at h
      cases h
    | ok records =>
      have hplace := s.append_place records (r.params.flag "final_statement")
      rcases happend : s.append records (r.params.flag "final_statement") with ⟨e | last, t'⟩
      · rw [insert_failed hrecords happend] at h
        cases h
      · cases last with
        | false =>
          obtain ⟨result', hrun⟩ := insert_buffered (w := w) hrecords happend
          rw [hrun] at h
          cases h
          rw [happend] at hplace
          exact hplace
        | true =>
          rw [insert_last hrecords happend] at h
          obtain ⟨_, -, he⟩ := Outcome.map_eq_ok.1 (congrArg Prod.fst h)
          cases he

end Request

/-! ## Queries of a session -/

theorem Session.run_perform (s : Session) (params : Params) (args : List Argument) (op : Operation) (w : World) :
    (s.perform params args op).run w =
      match (Request.perform ⟨s.engine, params, args⟩ s.statement op).runIn w with
      | (.ok (result, statement), w) => ((.ok result, { s with statement := statement }), w)
      | (.error e, w) => ((.error e, { s with statement := op.statementAfterFailure s.statement }), w) := by
  unfold perform
  rw [Program.run_bind]
  unfold Query.runIn
  rcases Program.run w (ExceptT.run (Request.perform ⟨s.engine, params, args⟩ s.statement op)) with ⟨e | a, v⟩ <;> rfl

end FragmentEngine
