import FragmentEngine.Proofs.Engine.Agreement
import FragmentEngine.Proofs.Engine.Footprint
import FragmentEngine.Proofs.Engine.Runs
import FragmentEngine.Proofs.Engine.Storing
import FragmentEngine.Proofs.Insert.Row
/-!
# Rows in batches

Rows may be inserted in any number of runs. However they are split into batches, a statement that is opened for so
many runs ends in the same way: it stores one fragment of the records of all rows, or nothing if a row has none.

One batch is dealt with first (`Session.execute_buffered`, `Session.execute_completed`): it takes a statement that
carries the rows before it to one that carries its own too, and the last batch to what is stored. All batches then
follow by induction on how many have been brought.
-/

namespace FragmentEngine

open Query

/-- The record of a row of value texts, in a query with the given arguments. -/
abbrev Engine.encode (e : Engine) (args : List Argument) (schema : Schema) : List String → Except Error Record :=
  Insert.encodeRow (e.context args) schema

/-! ## Columns -/

theorem Sections.entries_ne_nil {cs : List Char} {parts : List (List Char)} (h : entries cs = .ok parts) :
    parts ≠ [] := by
  unfold entries at h
  split at h
  · cases h
    simp
  · rename_i more _
    split at h
    · cases hmore : entries more with
      | error rest => simp [hmore, Except.map] at h
      | ok parts' =>
        rw [hmore] at h
        cases h
        simp
    · cases h

theorem Sections.list_ne_nil {text : String} {values : List String} (h : list text = .ok values) : values ≠ [] := by
  unfold list at h
  split at h
  · rename_i hentries
    cases h
    simpa using entries_ne_nil hentries
  · cases h

namespace Request

variable {r : Request} {schema : Schema}

/-- A new fragment has a column at least. -/
theorem newSchema_width (h : r.newSchema = .ok schema) : schema.width ≠ 0 := by
  unfold newSchema at h
  obtain ⟨names, hnames, h⟩ := Outcome.bind_eq_ok.1 h
  obtain ⟨types, -, h⟩ := Outcome.bind_eq_ok.1 h
  obtain ⟨text, -, hnames⟩ := Outcome.bind_eq_ok.1 hnames
  have hne := Sections.list_ne_nil hnames
  split at h
  · cases h
  · rename_i hlength
    obtain ⟨fields, hfields, h⟩ := Outcome.bind_eq_ok.1 h
    cases h
    have hwidth := (Outcome.mapM_eq_ok.1 hfields).length_eq
    have hpos := List.length_pos_of_ne_nil hne
    rw [List.length_zip] at hwidth
    change fields.length ≠ 0
    omega

/-- Whether a request is to open a statement of several runs for a new fragment. -/
structure Opens (r : Request) (db name : String) (device : Option String) (schema : Schema) (runs : Nat)
    (op : Operation) : Prop where
  op : op = .createFragment
  target : r.target = .ok (db, name)
  device : r.params.get? "device" = device
  schema : r.newSchema = .ok schema
  runs : r.params.count? "run" = .ok (some runs)

/-- Whether a request is to insert rows in one run that it does not declare final. One row may be inserted by itself,
and the columns may be named. -/
structure Brings (r : Request) (schema : Schema) (rows : List (List String)) (op : Operation) : Prop where
  op : (op = .insert ∧ rows.length = 1) ∨ (op = .multiInsert ∧ rows ≠ [])
  names : r.params.list "field" = .ok [] ∨ r.params.list "field" = .ok schema.names
  values : r.params.requireList "value" = .ok rows.flatten
  notFinal : r.params.flag "final_statement" = false

variable {rows : List (List String)} {op : Operation}

namespace Brings

/-- The records are those of the rows, whether one row is inserted by itself or several together. -/
theorem insertedRecords_eq (h : r.Brings schema rows op) (hwidth : schema.width ≠ 0)
    (hrows : ∀ row ∈ rows, row.length = schema.width) :
    r.insertedRecords (decide (op = .multiInsert)) schema = rows.mapM (r.engine.encode r.args schema) := by
  obtain ⟨names, hlist, hnames⟩ :
      ∃ names, r.params.list "field" = .ok names ∧ (names = [] ∨ names = schema.names) := by
    rcases h.names with h | h
    · exact ⟨_, h, .inl rfl⟩
    · exact ⟨_, h, .inr rfl⟩
  unfold insertedRecords
  rw [hlist, Outcome.ok_bind, h.values, Outcome.ok_bind]
  rcases h.op with ⟨rfl, hone⟩ | ⟨rfl, hne⟩
  · obtain ⟨row, rfl⟩ := List.length_eq_one_iff.1 hone
    have hrow := hrows row (List.mem_singleton_self row)
    simp [Insert.record_eq hnames hrow]
  · simp [Insert.records_eq hnames hwidth hne hrows]

theorem perform_eq (h : r.Brings schema rows op) (statement : Option Statement) :
    r.perform statement op = r.insert (decide (op = .multiInsert)) statement := by
  rcases h.op with ⟨rfl, -⟩ | ⟨rfl, -⟩ <;> rfl

theorem afterFailure_eq (h : r.Brings schema rows op) (statement : Option Statement) :
    op.statementAfterFailure statement = none := by
  rcases h.op with ⟨rfl, -⟩ | ⟨rfl, -⟩ <;> rfl

end Brings

end Request

/-! ## One batch -/

namespace Statement

/-- The statement after so many runs that brought the given rows; it is discarded if one of them has no record. -/
def carrying (s : Statement) (encode : List String → Except Error Record) (runs : Nat) (rows : List (List String)) :
    Option Statement :=
  (rows.mapM encode).toOption.map (s.received runs)

/-- A statement has received the given rows in so many runs, and nothing else. -/
structure Carries (s : Statement) (encode : List String → Except Error Record) (runs : Nat)
    (rows : List (List String)) : Prop where
  records : rows.mapM encode = .ok s.fragment.records
  currentRun : s.currentRun = runs
  carriedRows : s.carriedRows = rows.length
  size : s.size = (s.fragment.records.map Record.size).sum

theorem carries_of_carrying {s t : Statement} {encode : List String → Except Error Record} {runs : Nat}
    {rows : List (List String)} (h : s.carrying encode runs rows = some t) : t.Carries encode runs rows := by
  unfold carrying at h
  cases hrecords : rows.mapM encode with
  | error e =>
    rw [hrecords] at h
    cases h
  | ok records =>
    rw [hrecords] at h
    cases h
    exact ⟨hrecords, rfl, (Outcome.mapM_eq_ok.1 hrecords).length_eq.symm, rfl⟩

theorem carrying_eq_none {s : Statement} {encode : List String → Except Error Record} {runs : Nat}
    {rows : List (List String)} : s.carrying encode runs rows = none ↔ ∃ e, rows.mapM encode = .error e := by
  unfold carrying
  cases rows.mapM encode <;> simp [Except.toOption]

/-- The world after the statement is stored with the records of the given rows. It is the same as before if one of
them has none. -/
def storedWith (s : Statement) (encode : List String → Except Error Record) (rows : List (List String)) (w : World) :
    World :=
  match rows.mapM encode with
  | .ok records => ((Request.store { s.fragment with records := records } s.db s.device).runIn w).2
  | .error _ => w

end Statement

namespace Request.Brings

variable {opened : Statement} {done batch : List (List String)} {runs : Nat} {records : List Record} {e : Error}
  {r : Request} {op : Operation}

/-- A batch with a row that has no record ends the statement, as any batch does after it. -/
theorem refused (h : r.Brings opened.fragment.schema batch op) (runs : Nat)
    (hwidth : opened.fragment.schema.width ≠ 0) (hrows : ∀ row ∈ batch, row.length = opened.fragment.schema.width)
    (hrecords : (done ++ batch).mapM (r.engine.encode r.args opened.fragment.schema) = .error e) (w : World) :
    ∃ e', (r.perform (opened.carrying (r.engine.encode r.args opened.fragment.schema) runs done) op).runIn w =
      (.error e', w) := by
  have hinserted := h.insertedRecords_eq hwidth hrows
  rw [h.perform_eq, Statement.carrying]
  cases hdone : done.mapM (r.engine.encode r.args opened.fragment.schema) with
  -- The statement went with an earlier row that has no record.
  | error e => exact ⟨.exec .noStatement, rfl⟩
  | ok before =>
    cases hbatch : batch.mapM (r.engine.encode r.args opened.fragment.schema) with
    | error e =>
      rw [hbatch] at hinserted
      exact ⟨e, insert_refused (s := opened.received runs before) hinserted⟩
    | ok more =>
      rw [Outcome.mapM_append_eq_ok.2 ⟨before, more, hdone, hbatch, rfl⟩] at hrecords
      cases hrecords

/-- A batch that is not the last adds its records to those before. -/
theorem buffered (h : r.Brings opened.fragment.schema batch op) (hwidth : opened.fragment.schema.width ≠ 0)
    (hrows : ∀ row ∈ batch, row.length = opened.fragment.schema.width) (hruns : runs + 1 < opened.totalRuns)
    (hrecords : (done ++ batch).mapM (r.engine.encode r.args opened.fragment.schema) = .ok records) (w : World) :
    ∃ result, (r.perform (opened.carrying (r.engine.encode r.args opened.fragment.schema) runs done) op).runIn w =
      (.ok (result, some (opened.received (runs + 1) records)), w) := by
  obtain ⟨before, more, hdone, hbatch, rfl⟩ := Outcome.mapM_append_eq_ok.1 hrecords
  have hinserted := h.insertedRecords_eq hwidth hrows
  rw [hbatch] at hinserted
  have happend := Statement.append_received before (r.params.flag "final_statement")
    (Nat.lt_of_succ_lt hruns) (Insert.width_of_mapM hbatch hrows)
  rw [h.notFinal, Bool.false_or, beq_false_of_ne (Nat.ne_of_lt hruns)] at happend
  rw [h.perform_eq, Statement.carrying, hdone]
  exact insert_buffered hinserted (h.notFinal ▸ happend)

/-- The last batch stores the records of all batches. -/
theorem completed (h : r.Brings opened.fragment.schema batch op) (hwidth : opened.fragment.schema.width ≠ 0)
    (hrows : ∀ row ∈ batch, row.length = opened.fragment.schema.width) (hruns : runs + 1 = opened.totalRuns)
    (hrecords : (done ++ batch).mapM (r.engine.encode r.args opened.fragment.schema) = .ok records) (w : World) :
    ∃ result, (r.perform (opened.carrying (r.engine.encode r.args opened.fragment.schema) runs done) op).runIn w =
      (((store { opened.fragment with records := records } opened.db opened.device).runIn w).1.map
          fun _ => (result, none),
        ((store { opened.fragment with records := records } opened.db opened.device).runIn w).2) := by
  obtain ⟨before, more, hdone, hbatch, rfl⟩ := Outcome.mapM_append_eq_ok.1 hrecords
  have hinserted := h.insertedRecords_eq hwidth hrows
  rw [hbatch] at hinserted
  have happend := Statement.append_received before (r.params.flag "final_statement")
    (Nat.lt_of_succ_le (Nat.le_of_eq hruns)) (Insert.width_of_mapM hbatch hrows)
  rw [hruns, beq_self_eq_true, Bool.or_true] at happend
  rw [h.perform_eq, Statement.carrying, hdone]
  have hrun := insert_last (s := opened.received runs before) (w := w) hinserted happend
  dsimp only [Statement.received] at hrun
  exact ⟨_, hrun⟩

end Request.Brings

namespace Session

variable {s : Session} {query : String} {args : List Argument} {batch : List (List String)}

/-- A query that brings a batch before the last one changes the statement of its session alone. -/
theorem execute_buffered (opened : Statement) (done : List (List String)) (runs : Nat)
    (hbrings : s.Asks query args fun r op => r.Brings opened.fragment.schema batch op)
    (hwidth : opened.fragment.schema.width ≠ 0) (hrows : ∀ row ∈ batch, row.length = opened.fragment.schema.width)
    (hstatement : s.statement = opened.carrying (s.engine.encode args opened.fragment.schema) runs done)
    (hruns : runs + 1 < opened.totalRuns) (w : World) :
    ∃ answer, (s.execute query args).run w = ((answer,
      ⟨s.engine, opened.carrying (s.engine.encode args opened.fragment.schema) (runs + 1) (done ++ batch)⟩), w) := by
  obtain ⟨params, op, hparams, hop, hbrings⟩ := hbrings
  rw [execute_eq_perform hparams hop, run_perform, hbrings.afterFailure_eq, hstatement]
  cases hrecords : (done ++ batch).mapM (s.engine.encode args opened.fragment.schema) with
  | error e =>
    obtain ⟨e', hrun⟩ := hbrings.refused runs hwidth hrows hrecords w
    rw [hrun, Statement.carrying, hrecords]
    exact ⟨_, rfl⟩
  | ok records =>
    obtain ⟨result, hrun⟩ := hbrings.buffered hwidth hrows hruns hrecords w
    rw [hrun, Statement.carrying, hrecords]
    exact ⟨_, rfl⟩

/-- A query that brings the last batch leaves no statement and stores the rows of all batches. -/
theorem execute_completed (opened : Statement) (done : List (List String)) (runs : Nat)
    (hbrings : s.Asks query args fun r op => r.Brings opened.fragment.schema batch op)
    (hwidth : opened.fragment.schema.width ≠ 0) (hrows : ∀ row ∈ batch, row.length = opened.fragment.schema.width)
    (hstatement : s.statement = opened.carrying (s.engine.encode args opened.fragment.schema) runs done)
    (hruns : runs + 1 = opened.totalRuns) (w : World) :
    ∃ answer, (s.execute query args).run w = ((answer, ⟨s.engine, none⟩),
      opened.storedWith (s.engine.encode args opened.fragment.schema) (done ++ batch) w) := by
  obtain ⟨params, op, hparams, hop, hbrings⟩ := hbrings
  rw [execute_eq_perform hparams hop, run_perform, hbrings.afterFailure_eq, hstatement]
  cases hrecords : (done ++ batch).mapM (s.engine.encode args opened.fragment.schema) with
  | error e =>
    obtain ⟨e', hrun⟩ := hbrings.refused runs hwidth hrows hrecords w
    rw [hrun, Statement.storedWith, hrecords]
    exact ⟨_, rfl⟩
  | ok records =>
    obtain ⟨result, hrun⟩ := hbrings.completed hwidth hrows hruns hrecords w
    rw [hrun, Statement.storedWith, hrecords]
    dsimp only
    generalize (Request.store _ opened.db opened.device).runIn w = outcome
    rcases outcome with ⟨e | a, v⟩
    · exact ⟨_, rfl⟩
    · exact ⟨_, rfl⟩

theorem width_of_opens {db name : String} {device : Option String} {schema : Schema} {runs : Nat}
    (hopens : s.Asks query args fun r op => r.Opens db name device schema runs op) : schema.width ≠ 0 := by
  obtain ⟨params, op, -, -, hopens⟩ := hopens
  exact Request.newSchema_width hopens.schema

/-- A query that opens a statement for a new fragment succeeds. -/
theorem execute_opened {w : World} {db name : String} {device : Option String} {schema : Schema} {runs : Nat}
    (hopens : s.Asks query args fun r op => r.Opens db name device schema runs op) (hidle : s.statement = none)
    (hpos : runs ≠ 0) (hdb : db ∈ w.catalog.databases) (hnew : Catalog.key db name ∉ w.catalog.fragments) :
    ∃ answer, (s.execute query args).run w =
      ((.ok answer, ⟨s.engine, some (.start db name device schema runs)⟩), w) := by
  obtain ⟨params, op, hparams, hop, rfl, htarget, rfl, hschema, hruns⟩ := hopens
  obtain ⟨result, hrun⟩ := Request.createFragment_opens htarget hdb hnew hschema hruns hpos
  have hperform : (Request.perform ⟨s.engine, params, args⟩ s.statement .createFragment).runIn w = _ :=
    hidle.symm ▸ hrun
  rw [execute_eq_perform hparams hop, run_perform, hperform]
  exact ⟨_, rfl⟩

end Session

/-! ## All batches -/

namespace Request

/-- A new fragment is stored in memory under its own name, and nothing else changes there. -/
theorem store_memory {d : Disk} {c : Catalog} {m : MemoryStore} {db : String} {f : Fragment} {device : Option String}
    (h : Consistent c m) (hname : Name.check f.name = .ok ()) (hdb : db ∈ c.databases)
    (hnew : Catalog.key db f.name ∉ c.fragments) (x n : String) :
    ((store f db device).runIn (.memory d c m)).2.getFragment x n =
      if x = db ∧ n = f.name then .ok f else m.getFragment x n := by
  obtain ⟨c', m', hrun, -, hget⟩ := store_new_memory (d := d) h hname hdb hnew device
  rw [hrun]
  exact hget x n

end Request

namespace Shared

/-- The state after a query that opens a statement and the first `k` of the queries that bring its batches. -/
def batched (S : Shared) (i : Nat) (create : String) (inserts : List String) (args : List Argument) (k : Nat) :
    Shared :=
  (S.execute i create args).run ((inserts.take k).map fun query => (i, query, args))

/-- A session without a statement is to open one for a new fragment with `create`, and to bring its rows in batches,
one with each of `inserts`. -/
structure InBatches (S : Shared) (i : Nat) (db name : String) (device : Option String) (schema : Schema)
    (create : String) (inserts : List String) (args : List Argument) (batches : List (List (List String))) : Prop where
  idle : (S.sessions i).statement = none
  database : db ∈ S.world.catalog.databases
  new : Catalog.key db name ∉ S.world.catalog.fragments
  nonempty : batches ≠ []
  opens : (S.sessions i).Asks create args fun r op => r.Opens db name device schema batches.length op
  brings : List.Forall₂ (fun query batch => (S.sessions i).Asks query args fun r op => r.Brings schema batch op)
    inserts batches
  width : ∀ row ∈ batches.flatten, row.length = schema.width

variable {S : Shared} {i : Nat} {db name : String} {device : Option String} {schema : Schema} {create : String}
  {inserts : List String} {args : List Argument} {batches : List (List (List String))}

theorem batched_succ {k : Nat} (hk : k < inserts.length) : S.batched i create inserts args (k + 1) =
    (S.batched i create inserts args k).execute i inserts[k] args := by
  unfold batched
  rw [← List.take_append_getElem hk, List.map_append]
  exact run_concat ..

namespace InBatches

variable (h : S.InBatches i db name device schema create inserts args batches)

include h

theorem length_eq : inserts.length = batches.length := h.brings.length_eq

theorem brings_get {k : Nat} (hk : k < inserts.length) (hk' : k < batches.length) :
    (S.sessions i).Asks inserts[k] args fun r op => r.Brings schema batches[k] op :=
  (List.forall₂_iff_get.1 h.brings).2 k hk hk'

theorem width_get {k : Nat} (hk : k < batches.length) : ∀ row ∈ batches[k], row.length = schema.width :=
  fun row hrow => h.width row (List.mem_flatten_of_mem (List.getElem_mem hk) hrow)

/-- As long as batches are left, the world is as it was, and the statement has what the batches have brought. -/
theorem before {k : Nat} (hk : k < batches.length) :
    (S.batched i create inserts args k).world = S.world ∧
    (S.batched i create inserts args k).sessions i = ⟨(S.sessions i).engine,
      (Statement.start db name device schema batches.length).carrying ((S.sessions i).engine.encode args schema) k
        (batches.take k).flatten⟩ := by
  induction k with
  | zero =>
    obtain ⟨answer, hrun⟩ := Session.execute_opened h.opens h.idle
      (fun hzero => h.nonempty (List.length_eq_zero_iff.1 hzero)) h.database h.new
    refine ⟨congrArg Prod.snd hrun, ?_⟩
    unfold batched run
    rw [List.take_zero, List.map_nil, List.foldl_nil, sessions_execute, if_pos rfl, hrun]
    rfl
  | succ k ih =>
    obtain ⟨hworld, hsession⟩ := ih (Nat.lt_of_succ_lt hk)
    have hk' : k < inserts.length := h.length_eq ▸ Nat.lt_of_succ_lt hk
    obtain ⟨answer, hrun⟩ := Session.execute_buffered (.start db name device schema batches.length)
      (batches.take k).flatten k
      (s := ⟨(S.sessions i).engine, (Statement.start db name device schema batches.length).carrying
        ((S.sessions i).engine.encode args schema) k (batches.take k).flatten⟩)
      (h.brings_get hk' (Nat.lt_of_succ_lt hk)) (Session.width_of_opens h.opens) (h.width_get _) rfl hk S.world
    have htake : (batches.take (k + 1)).flatten = (batches.take k).flatten ++ batches[k] := by
      rw [← List.take_append_getElem (Nat.lt_of_succ_lt hk), List.flatten_append, List.flatten_singleton]
    rw [batched_succ hk', sessions_execute, if_pos rfl, hsession, hworld, htake]
    refine ⟨?_, congrArg (·.1.2) hrun⟩
    unfold execute
    rw [hsession, hworld]
    exact congrArg Prod.snd hrun

/-- After the last batch no statement is left, and all rows are stored. -/
theorem after : (S.batched i create inserts args batches.length).sessions i = ⟨(S.sessions i).engine, none⟩ ∧
    (S.batched i create inserts args batches.length).world =
      (Statement.start db name device schema batches.length).storedWith ((S.sessions i).engine.encode args schema)
        batches.flatten S.world := by
  obtain ⟨k, hlast⟩ := Nat.exists_eq_succ_of_ne_zero fun hzero => h.nonempty (List.length_eq_zero_iff.1 hzero)
  have hk : k < batches.length := by omega
  have hk' : k < inserts.length := h.length_eq ▸ hk
  obtain ⟨hworld, hsession⟩ := h.before hk
  obtain ⟨answer, hrun⟩ := Session.execute_completed (.start db name device schema batches.length)
    (batches.take k).flatten k
    (s := ⟨(S.sessions i).engine, (Statement.start db name device schema batches.length).carrying
      ((S.sessions i).engine.encode args schema) k (batches.take k).flatten⟩)
    (h.brings_get hk' hk) (Session.width_of_opens h.opens) (h.width_get _) rfl hlast.symm S.world
  have hall : batches.flatten = (batches.take k).flatten ++ batches[k] := by
    conv_lhs => rw [← List.take_length (l := batches), hlast, ← List.take_append_getElem hk]
    rw [List.flatten_append, List.flatten_singleton]
  have hend : S.batched i create inserts args batches.length =
      (S.batched i create inserts args k).execute i inserts[k] args := hlast ▸ batched_succ hk'
  rw [hend, sessions_execute, if_pos rfl, hsession, hworld, hall]
  refine ⟨congrArg (·.1.2) hrun, ?_⟩
  unfold execute
  rw [hsession, hworld]
  exact congrArg Prod.snd hrun

theorem check_name : Name.check name = .ok () := by
  obtain ⟨params, op, -, -, hopens⟩ := h.opens
  obtain ⟨text, -, htarget⟩ := Outcome.bind_eq_ok.1 hopens.target
  exact (Request.check_of_qualified htarget).2

end InBatches

/-- However rows are split into batches, the statement that takes them in ends in the same way. If every row has a
record, the fragment of these records is stored and nothing else changes, and if not, nothing is stored. No statement
is left, and before the last batch the statement has what was brought so far, and is discarded at the first row
without a record. -/
theorem batched_outcome (h : S.InBatches i db name device schema create inserts args batches) :
    (∀ k < batches.length, (S.batched i create inserts args k).world = S.world ∧
      (∀ s, ((S.batched i create inserts args k).sessions i).statement = some s →
        s.Carries ((S.sessions i).engine.encode args schema) k (batches.take k).flatten) ∧
      (((S.batched i create inserts args k).sessions i).statement = none ↔
        ∃ e, (batches.take k).flatten.mapM ((S.sessions i).engine.encode args schema) = .error e)) ∧
    ((S.batched i create inserts args batches.length).sessions i).statement = none ∧
    (∀ e, batches.flatten.mapM ((S.sessions i).engine.encode args schema) = .error e →
      (S.batched i create inserts args batches.length).world = S.world) ∧
    ∀ records, batches.flatten.mapM ((S.sessions i).engine.encode args schema) = .ok records →
      (S.batched i create inserts args batches.length).world =
        ((Request.store ⟨name, schema, records, false⟩ db device).runIn S.world).2 ∧
      ∀ d c m, S.world = .memory d c m → Consistent c m → ∀ x n,
        (S.batched i create inserts args batches.length).world.getFragment x n =
          if x = db ∧ n = name then .ok ⟨name, schema, records, false⟩ else S.world.getFragment x n := by
  obtain ⟨hsession, hworld⟩ := h.after
  refine ⟨fun k hk => ?_, congrArg Session.statement hsession, fun e he => ?_, fun records hrecords => ?_⟩
  · obtain ⟨hsame, hcarrying⟩ := h.before hk
    rw [hcarrying]
    exact ⟨hsame, fun s hs => Statement.carries_of_carrying hs, Statement.carrying_eq_none⟩
  · rw [hworld, Statement.storedWith, he]
  · have hstored : (S.batched i create inserts args batches.length).world =
        ((Request.store ⟨name, schema, records, false⟩ db device).runIn S.world).2 := by
      rw [hworld, Statement.storedWith, hrecords]
      rfl
    refine ⟨hstored, fun d c m hmemory hconsistent x n => ?_⟩
    have hdb := h.database
    have hnew := h.new
    rw [hstored]
    rw [hmemory] at hdb hnew ⊢
    exact Request.store_memory (f := ⟨name, schema, records, false⟩) hconsistent h.check_name hdb hnew x n

/-- An engine in memory with one database. -/
def oneDatabase : Shared := (start (.builtin 0) .empty).run [(0, "operation=create_db;db_name=db", [])]

def idName : Schema := ⟨[⟨"id", .long, false⟩, ⟨"name", .string, false⟩]⟩

def openTwo : String := "operation=create_frag;frag_name=db.f;field=id|name;field_type=long|string;run=2"

/-- One row, and then two more. -/
def oneAndTwo : List String := ["operation=insert;value=1|a", "operation=multi_insert;field=id|name;value=2|b|3|c"]

theorem oneAndTwo_inBatches :
    oneDatabase.InBatches 0 "db" "f" none idName openTwo oneAndTwo [] [[["1", "a"]], [["2", "b"], ["3", "c"]]] where
  idle := by decide +kernel
  database := by decide +kernel
  new := by decide +kernel
  nonempty := by decide
  opens := ⟨⟨[("operation", "create_frag"), ("frag_name", "db.f"), ("field", "id|name"),
      ("field_type", "long|string"), ("run", "2")]⟩, .createFragment, by decide +kernel, by decide +kernel,
    ⟨rfl, by decide +kernel, by decide +kernel, by decide +kernel, by decide +kernel⟩⟩
  brings := .cons ⟨⟨[("operation", "insert"), ("value", "1|a")]⟩, .insert, by decide +kernel, by decide +kernel,
      ⟨.inl ⟨rfl, rfl⟩, .inl (by decide +kernel), by decide +kernel, by decide +kernel⟩⟩
    (.cons ⟨⟨[("operation", "multi_insert"), ("field", "id|name"), ("value", "2|b|3|c")]⟩, .multiInsert,
        by decide +kernel, by decide +kernel,
        ⟨.inr ⟨rfl, by decide⟩, .inr (by decide +kernel), by decide +kernel, by decide +kernel⟩⟩ .nil)
  width := by decide

theorem batched_outcome_oneAndTwo :
    oneDatabase.InBatches 0 "db" "f" none idName openTwo oneAndTwo [] [[["1", "a"]], [["2", "b"], ["3", "c"]]] ∧
    ∃ records, [["1", "a"], ["2", "b"], ["3", "c"]].mapM ((oneDatabase.sessions 0).engine.encode [] idName) =
        .ok records ∧ records.length = 3 ∧
      (oneDatabase.batched 0 openTwo oneAndTwo [] 2).world.getFragment "db" "f" =
        .ok ⟨"f", idName, records, false⟩ := by
  have hok : ([["1", "a"], ["2", "b"], ["3", "c"]].mapM ((oneDatabase.sessions 0).engine.encode [] idName)).isOk =
      true := by decide +kernel
  cases hrecords : [["1", "a"], ["2", "b"], ["3", "c"]].mapM ((oneDatabase.sessions 0).engine.encode [] idName) with
  | error e =>
    rw [hrecords] at hok
    cases hok
  | ok records =>
    obtain ⟨c, m, hmemory, hconsistent⟩ := run_consistent (S := start (.builtin 0) .empty) rfl .empty
      [(0, "operation=create_db;db_name=db", [])]
    obtain ⟨-, -, -, hstored⟩ := batched_outcome oneAndTwo_inBatches
    have hfragment := (hstored records hrecords).2 _ c m hmemory hconsistent "db" "f"
    rw [if_pos ⟨rfl, rfl⟩] at hfragment
    exact ⟨oneAndTwo_inBatches, records, rfl, (Outcome.mapM_eq_ok.1 hrecords).length_eq.symm, hfragment⟩

/-- A fragment of one text column. -/
def openName (runs : String) : String :=
  "operation=create_frag;frag_name=db.f;field=name;field_type=string;run=" ++ runs

/-- A fragment of two text columns. -/
def openNames (runs : String) : String :=
  "operation=create_frag;frag_name=db.f;field=name|mail;field_type=string|string;run=" ++ runs

/-- Two empty texts, which have records, are stored if they are brought together and not if they are brought one by
one, as a lone empty value counts as absent. Rows of one text and of three are cut into two rows of two texts if they
are brought together and are refused if not. -/
theorem batched_splits_differ :
    ([[""], [""]].mapM ((oneDatabase.sessions 0).engine.encode [] ⟨[⟨"name", .string, false⟩]⟩) =
        .ok [⟨[[0]]⟩, ⟨[[0]]⟩] ∧
      ((oneDatabase.batched 0 (openName "1") ["operation=multi_insert;value=|"] [] 1).world.getFragment
        "db" "f").map (·.records) = .ok [⟨[[0]]⟩, ⟨[[0]]⟩] ∧
      (oneDatabase.batched 0 (openName "2") ["operation=insert;value=", "operation=insert;value="] []
        2).world.getFragment "db" "f" = .error (.store (.fragmentNotStored "db" "f"))) ∧
    ((oneDatabase.batched 0 (openNames "1") ["operation=multi_insert;value=a|b|c|d"] [] 1).world.getFragment
        "db" "f").map (·.rowCount) = .ok 2 ∧
      (oneDatabase.batched 0 (openNames "2") ["operation=insert;value=a", "operation=insert;value=b|c|d"] []
        2).world.getFragment "db" "f" = .error (.store (.fragmentNotStored "db" "f")) := by
  refine ⟨⟨?_, ?_, ?_⟩, ?_, ?_⟩
  all_goals decide +kernel

end Shared

end FragmentEngine
