import FragmentEngine.Proofs.Engine.Agreement
import FragmentEngine.Proofs.Engine.Footprint
import FragmentEngine.Proofs.Engine.Runs
/-!
# The first fragment stored under a name

A fragment stays as it was first stored until it is dropped, whatever queries any number of sessions carry out one
at a time. Until then every query that is to store another one under its name fails, however long ago its statement
was opened.
-/

namespace FragmentEngine

open Query

/-! ## Taken places -/

namespace Request

variable {r : Request} {statement : Option Statement} {op : Operation} {db name : String} {w : World}

theorem checkNew_taken (h : w.catalog.Has db name) :
    (checkNew db name).runIn w = (.error (.catalog (.alreadyExists (Catalog.key db name))), w) := by
  rw [checkNew_runIn, if_pos h.1, if_pos h.2]

/-- The last run of a statement fails if the name of its fragment has been taken since it was opened. -/
theorem insert_taken {several : Bool} {s : Statement} (hends : s.EndsWith (r.params.flag "final_statement"))
    (h : w.catalog.Has s.place.1 s.place.2) : ∃ e, (r.insert several (some s)).runIn w = (.error e, w) := by
  cases hrecords : r.insertedRecords several s.fragment.schema with
  | error e => exact ⟨e, insert_refused hrecords⟩
  | ok records =>
    have hplace := s.append_place records (r.params.flag "final_statement")
    rcases happend : s.append records (r.params.flag "final_statement") with ⟨e | last, t⟩
    · exact ⟨e, insert_failed hrecords happend⟩
    · obtain rfl : last = true := (Statement.append_eq_ok happend).2 hends
      rw [happend] at hplace
      rw [← hplace] at h
      have hkey : Catalog.key t.db t.fragment.name ∈ w.catalog.fragments := h.2
      rw [insert_last hrecords happend, store_taken hkey]
      exact ⟨_, rfl⟩

/-- A request that is to store a fragment at a place that is taken fails and changes nothing. -/
theorem perform_taken (haims : r.Aims statement (db, name) op) (h : w.catalog.Has db name) :
    ∃ e, (r.perform statement op).runIn w = (.error e, w) := by
  have look (htarget : r.target = .ok (db, name)) :
      (liftM r.target : Query (String × String)).runIn w = (.ok (db, name), w) := by
    rw [htarget, runIn_lift]
  cases op with
  | createFragment =>
    cases statement with
    | some s => exact ⟨_, createFragment_open⟩
    | none => exact ⟨_, (runIn_bind_ok (look haims)).trans (runIn_bind_error (checkNew_taken h))⟩
  | createFromSelect =>
    exact ⟨_, runIn_bind_error ((runIn_bind_ok (look haims)).trans (runIn_bind_error (checkNew_taken h)))⟩
  | createFromFile =>
    exact ⟨_, runIn_bind_error ((runIn_bind_ok (look haims)).trans (runIn_bind_error (checkNew_taken h)))⟩
  | insert =>
    obtain ⟨s, rfl, hplace, hends⟩ := haims
    exact insert_taken hends (by rwa [hplace])
  | multiInsert =>
    obtain ⟨s, rfl, hplace, hends⟩ := haims
    exact insert_taken hends (by rwa [hplace])
  | createDatabase | dropDatabase | select | dropFragment => exact haims.elim

end Request

/-! ## Untouched places -/

variable {d : Disk} {c : Catalog} {m : MemoryStore} {db name : String}

namespace Call

/-- The calls that change what is stored at a place. -/
def Touches (place : String × String) : Call → Prop
  | .putFragment db f => (db, f.name) = place
  | .deleteFragment db name => (db, name) = place
  | .deleteDatabase db => db = place.1
  | _ => False

theorem perform_untouched {call : Call} (h : ¬call.Touches (db, name)) :
    ∃ c' m', (call.perform (.memory d c m)).2 = .memory d c' m' ∧
      (m'.fragments db)[name]? = (m.fragments db)[name]? := by
  rw [perform_memory]
  cases hcall : call.inMemory d c m with
  | error e => exact ⟨c, m, rfl, rfl⟩
  | ok r =>
    obtain ⟨a, c', m'⟩ := r
    refine ⟨c', m', rfl, ?_⟩
    cases call with
    | listDatabases | flush =>
      cases hcall
      rfl
    | putDatabase x =>
      obtain ⟨_, hm, hcall⟩ := Outcome.map_eq_ok.1 hcall
      cases hcall
      rw [MemoryStore.fragments_putDatabase hm]
    | deleteDatabase x =>
      obtain ⟨_, hm, hcall⟩ := Outcome.map_eq_ok.1 hcall
      cases hcall
      have hne : x ≠ db := h
      rw [MemoryStore.fragments_deleteDatabase hm, if_neg hne]
    | putFragment x f =>
      obtain ⟨_, hm, hcall⟩ := Outcome.map_eq_ok.1 hcall
      cases hcall
      rw [MemoryStore.fragments_putFragment hm]
      split
      · rename_i hx
        rw [Maps.get_insert, if_neg fun hname => h (Prod.ext hx hname), hx]
      · rfl
    | deleteFragment x n =>
      obtain ⟨_, hm, hcall⟩ := Outcome.map_eq_ok.1 hcall
      cases hcall
      rw [MemoryStore.fragments_deleteFragment hm]
      split
      · rename_i hx
        rw [Maps.get_erase, if_neg fun hname => h (Prod.ext hx hname), hx]
      · rfl
    | _ =>
      obtain ⟨_, -, hcall⟩ := Outcome.map_eq_ok.1 hcall
      cases hcall
      rfl

end Call

/-! ## Queries and places -/

namespace Session

/-- Whether a query of a session is to store a fragment at a place: an empty one at once, that of its statement by
the last run, the result of a select, or an import. -/
def Aims (s : Session) (query : String) (args : List Argument) (place : String × String) : Prop :=
  s.Asks query args fun r op => r.Aims s.statement place op

/-- Whether a query of a session asks to drop the fragment at a place or its database. -/
def Unstores (s : Session) (query : String) (args : List Argument) (place : String × String) : Prop :=
  s.Asks query args fun r op => r.DropsFragment place op ∨ r.DropsDatabase place.1 op

variable {s : Session} {query : String} {args : List Argument}

/-- What is stored at a place is changed only by queries that are to store a fragment there or to drop it. -/
theorem execute_untouched (haims : ¬s.Aims query args (db, name)) (hdrop : ¬s.Unstores query args (db, name)) :
    ∃ c' m', ((s.execute query args).run (.memory d c m)).2 = .memory d c' m' ∧
      (m'.fragments db)[name]? = (m.fragments db)[name]? := by
  refine (s.execute_uses query args).run
    (P := fun w => ∃ c' m', w = .memory d c' m' ∧ (m'.fragments db)[name]? = (m.fragments db)[name]?) ?_
    ⟨c, m, rfl, rfl⟩
  rintro call w ⟨params, op, hparams, hop, hmay⟩ ⟨c', m', rfl, hsame⟩
  have huntouched : ¬call.Touches (db, name) := by
    intro htouches
    cases call with
    | putFragment x f => exact haims ⟨params, op, hparams, hop, htouches ▸ hmay⟩
    | deleteFragment x n => exact hdrop ⟨params, op, hparams, hop, .inl (htouches ▸ hmay)⟩
    | deleteDatabase x => exact hdrop ⟨params, op, hparams, hop, .inr (htouches ▸ hmay.1)⟩
    | _ => exact htouches.elim
  obtain ⟨c'', m'', hw, hsame'⟩ := Call.perform_untouched (d := d) (c := c') (m := m') huntouched
  exact ⟨c'', m'', hw, hsame'.trans hsame⟩

/-- A query that is to store a fragment at a place that is taken fails and changes nothing. -/
theorem execute_taken {w : World} (haims : s.Aims query args (db, name)) (h : w.catalog.Has db name) :
    ∃ e s', (s.execute query args).run w = ((.error e, s'), w) := by
  obtain ⟨params, op, hparams, hop, haims⟩ := haims
  obtain ⟨e, hrun⟩ := Request.perform_taken haims h
  rw [execute_eq_perform hparams hop, run_perform, hrun]
  exact ⟨e, _, rfl⟩

end Session

namespace Shared

/-- The answer of one query of session `i`. -/
def answer (S : Shared) (i : Nat) (query : String) (args : List Argument) : Except Error QueryResult :=
  (((S.sessions i).execute query args).run S.world).1.1

/-- Whether one of the queries succeeds in dropping the fragment at a place or its database. -/
def Dropped (S : Shared) (place : String × String) : List (Nat × String × List Argument) → Prop
  | [] => False
  | (i, query, args) :: rest =>
    ((S.sessions i).Unstores query args place ∧ ∃ result, S.answer i query args = .ok result) ∨
      (S.execute i query args).Dropped place rest

variable {S : Shared} {i : Nat} {query : String} {args : List Argument} {g : Fragment}

/-- A place that holds a fragment is taken. -/
theorem has_of_stored (h : Consistent c m) (hstored : m.getFragment db name = .ok g) : c.Has db name := by
  have hname := Maps.mem_of_get (MemoryStore.getFragment_eq_ok.1 hstored)
  have hdb := (h.databases db).2 (MemoryStore.mem_of_holds hname)
  exact ⟨hdb, (h.mem_iff hdb name).2 hname⟩

/-- One query keeps a stored fragment unless it succeeds in dropping it. -/
theorem execute_keeps (hw : S.world = .memory d c m) (h : Consistent c m)
    (hstored : m.getFragment db name = .ok g)
    (hkept : ¬((S.sessions i).Unstores query args (db, name) ∧ ∃ result, S.answer i query args = .ok result)) :
    (S.execute i query args).world.getFragment db name = .ok g := by
  have hrun : (S.execute i query args).world = (((S.sessions i).execute query args).run (.memory d c m)).2 := by
    rw [← hw]
    rfl
  have hanswer : S.answer i query args = (((S.sessions i).execute query args).run (.memory d c m)).1.1 := by
    rw [← hw]
    rfl
  rw [hrun]
  cases hok : S.answer i query args with
  | error e =>
    rw [hanswer] at hok
    rw [Session.execute_error h.coherent.isListed hok]
    exact hstored
  -- A query that succeeds is not to store a fragment here, as the place is taken, and does not drop it.
  | ok result =>
    have haims : ¬(S.sessions i).Aims query args (db, name) := fun haims => by
      obtain ⟨e, s', hfails⟩ := Session.execute_taken (w := .memory d c m) haims (has_of_stored h hstored)
      rw [hanswer, hfails] at hok
      cases hok
    have hdrop : ¬(S.sessions i).Unstores query args (db, name) := fun hdrop => hkept ⟨hdrop, result, hok⟩
    obtain ⟨c', m', hmemory, hsame⟩ := Session.execute_untouched (d := d) (c := c) (m := m) haims hdrop
    rw [hmemory]
    exact MemoryStore.getFragment_eq_ok.2 (hsame.trans (MemoryStore.getFragment_eq_ok.1 hstored))

theorem run_keeps (hw : S.world = .memory d c m) (h : Consistent c m) (hstored : m.getFragment db name = .ok g)
    {queries : List (Nat × String × List Argument)} (hkept : ¬S.Dropped (db, name) queries) :
    (S.run queries).world.getFragment db name = .ok g := by
  induction queries generalizing S c m with
  | nil =>
    unfold run
    rw [List.foldl_nil, hw]
    exact hstored
  | cons q rest ih =>
    obtain ⟨i, query, args⟩ := q
    obtain ⟨hone, hrest⟩ := not_or.1 hkept
    obtain ⟨c', m', hw', h'⟩ := execute_consistent hw h i query args
    have hnext := execute_keeps hw h hstored hone
    rw [hw'] at hnext
    exact ih hw' h' hnext hrest

/-- Once a fragment is stored in an engine in memory, it is what the store returns after every later query until it
or its database is dropped, and until then every query that is to store a fragment under its name fails and changes
nothing. -/
theorem run_firstStored (e : Engine) (d : Disk) (earlier later : List (Nat × String × List Argument))
    {db name : String} {g : Fragment}
    (hstored : ((start e d).run earlier).world.getFragment db name = .ok g)
    (hkept : ¬((start e d).run earlier).Dropped (db, name) later) :
    (((start e d).run earlier).run later).world.getFragment db name = .ok g ∧
    ∀ (i : Nat) (query : String) (args : List Argument),
      ((((start e d).run earlier).run later).sessions i).Aims query args (db, name) →
      (∃ error, (((start e d).run earlier).run later).answer i query args = .error error) ∧
      ((((start e d).run earlier).run later).execute i query args).world =
        (((start e d).run earlier).run later).world := by
  obtain ⟨c, m, hw, h⟩ := run_consistent (S := start e d) rfl .empty earlier
  have hm := hstored
  rw [hw] at hm
  have hstill := run_keeps hw h hm hkept
  refine ⟨hstill, fun i query args haims => ?_⟩
  obtain ⟨c', m', hw', h'⟩ := run_consistent hw h later
  rw [hw'] at hstill
  have hhas : (((start e d).run earlier).run later).world.catalog.Has db name := by
    rw [hw']
    exact has_of_stored h' hstill
  obtain ⟨error, s', hfails⟩ := Session.execute_taken haims hhas
  unfold answer execute
  rw [hfails]
  exact ⟨⟨error, rfl⟩, rfl⟩

/-- Two sessions open a statement for one fragment, and session 0 stores its own. -/
def raceWon : Shared :=
  let open? := "operation=create_frag;frag_name=db.f;field=id;field_type=long"
  (start (.builtin 0) .empty).run
    [(0, "operation=create_db;db_name=db", []), (0, open?, []), (1, open?, []), (0, "operation=insert;value=1", [])]

/-- A query that is refused, as the fragment is there. -/
def again : String := "operation=create_frag;frag_name=db.f;field=id;field_type=long;run=0"

theorem raceWon_aims : ((raceWon.run [(0, again, [])]).sessions 1).Aims "operation=insert;value=2" [] ("db", "f") := by
  have hopen : ((raceWon.run [(0, again, [])]).sessions 1).statement.map
      (fun s => (s.place, s.totalRuns - s.currentRun)) = some (("db", "f"), 1) := by
    decide +kernel
  obtain ⟨s, hs, heq⟩ := Option.map_eq_some_iff.1 hopen
  obtain ⟨hplace, hruns⟩ := Prod.mk.inj heq
  refine ⟨⟨[("operation", "insert"), ("value", "2")]⟩, .insert, by decide +kernel, by decide +kernel, s, hs, ?_⟩
  exact ⟨hplace, .inr (by omega)⟩

/-- The insert of the other session fails, and the fragment stays as the first session stored it. -/
theorem run_firstStored_raceWon : ∃ g, raceWon.world.getFragment "db" "f" = .ok g ∧ g.rowCount = 1 ∧
    (∃ error, (raceWon.run [(0, again, [])]).answer 1 "operation=insert;value=2" [] = .error error) ∧
    ((raceWon.run [(0, again, [])]).execute 1 "operation=insert;value=2" []).world.getFragment "db" "f" = .ok g := by
  have hok : ((raceWon.world.getFragment "db" "f").map (·.rowCount)).toOption = some 1 := by decide +kernel
  cases hg : raceWon.world.getFragment "db" "f" with
  | error e => simp [hg, Except.map, Except.toOption] at hok
  | ok g =>
    have hrefused : (raceWon.answer 0 again []).isOk = false := by decide +kernel
    have hkept : ¬raceWon.Dropped ("db", "f") [(0, again, [])] := by
      rintro (⟨-, result, hresult⟩ | h)
      · rw [hresult] at hrefused
        cases hrefused
      · exact h
    obtain ⟨hstill, hfails⟩ := run_firstStored (.builtin 0) .empty _ _ hg hkept
    obtain ⟨herror, hsame⟩ := hfails 1 "operation=insert;value=2" [] raceWon_aims
    refine ⟨g, rfl, by simpa [hg, Except.map, Except.toOption] using hok, herror, ?_⟩
    exact (congrArg (·.getFragment "db" "f") hsame).trans hstill

end Shared

end FragmentEngine
