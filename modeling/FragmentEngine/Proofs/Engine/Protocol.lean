import FragmentEngine.Engine.Session
import FragmentEngine.Proofs.Outcome
/-!
# The protocol of a query

A query reads as it likes, and then changes the catalog and the store at most once, by calls in a fixed order. A
phase says how far it is. Every query follows the protocol whatever its calls are answered, so the order of its
calls is known even when other sessions change the answers.
-/

namespace FragmentEngine

/-- A call that changes nothing. -/
def Call.IsRead : Call → Prop
  | .listDatabases | .findDatabase _ | .findFragment _ _ | .getFragment _ _ | .readFile _ => True
  | _ => False

/-- How far a query is with what it changes. -/
inductive Phase where
  /-- Nothing is changed. -/
  | start
  | foundDatabase (db : String)
  | foundFragment (db name : String)
  /-- In the catalog, and still to be put. -/
  | creating (db : String)
  /-- In the catalog, and could not be put. -/
  | uncreating (db : String)
  /-- Deleted, and still in the catalog. -/
  | dropping (db : String)
  /-- Entered into the catalog, and still to be put. -/
  | claimed (db : String) (device : Option String) (f : Fragment)
  /-- Entered into the catalog, and could not be put. -/
  | releasing (db : String) (device : Option String) (f : Fragment)
  /-- Deleted, and still in the catalog. -/
  | removing (db name : String)
  | finished
  /-- A change could not be completed or taken back. -/
  | failed

namespace Phase

/-- The calls that may be made in a phase, with the phases after a success and after a failure. -/
inductive Step : Phase → Call → Phase → Phase → Prop
  | read (c : Call) : c.IsRead → Step .start c .start .start
  | addDatabase (db : String) : Name.check db = .ok () → Step .start (.addDatabase db) (.creating db) .start
  | putDatabase (db : String) : Step (.creating db) (.putDatabase db) .finished (.uncreating db)
  | undoDatabase (db : String) : Step (.uncreating db) (.removeDatabase db) .start .failed
  | chooseDatabase (db : String) : Step .start (.findDatabase db) (.foundDatabase db) .start
  | deleteDatabase (db : String) : Step (.foundDatabase db) (.deleteDatabase db) (.dropping db) .start
  | removeDatabase (db : String) : Step (.dropping db) (.removeDatabase db) .finished .failed
  | addFragment (db : String) (device : Option String) (f : Fragment) :
      Step .start (.addFragment (FragmentEntry.describe db device f)) (.claimed db device f) .start
  | putFragment (db : String) (device : Option String) (f : Fragment) :
      Step (.claimed db device f) (.putFragment db f) .finished (.releasing db device f)
  | releaseFragment (db : String) (device : Option String) (f : Fragment) :
      Step (.releasing db device f) (.removeFragment db f.name) .start .failed
  | chooseFragment (db name : String) : Step .start (.findFragment db name) (.foundFragment db name) .start
  | deleteFragment (db name : String) :
      Step (.foundFragment db name) (.deleteFragment db name) (.removing db name) .start
  | removeFragment (db name : String) : Step (.removing db name) (.removeFragment db name) .finished .failed
  | flush : Step .finished .flush .finished .failed

/-- How an operation may end: with nothing changed, with success, or without having completed its change. -/
inductive Ends {α : Type} : Phase → Except Error α → Prop
  | unchanged (x : Except Error α) : Ends .start x
  | changed (a : α) : Ends .finished (.ok a)
  | broken (e : Error) : Ends .failed (.error e)

theorem Ends.ok {α β : Type} {φ : Phase} {a : α} {b : β} (h : Ends φ (.ok a)) : Ends φ (.ok b) := by
  cases h with
  | unchanged => exact .unchanged _
  | changed => exact .changed b

theorem Ends.error {α β : Type} {φ : Phase} {e : Error} (h : Ends φ (.error e : Except Error α)) :
    Ends φ (.error e : Except Error β) := by
  cases h with
  | unchanged => exact .unchanged _
  | broken => exact .broken e

end Phase

/-! ## Programs that follow the protocol -/

instance : LawfulMonad Program := LawfulMonad.mk' Program Program.bind_pure (fun _ _ => rfl) Program.bind_assoc

/-- From a phase on, every call is allowed and every end satisfies the condition, whatever the answers. -/
def Program.Follows {α : Type} (post : Phase → α → Prop) : Program α → Phase → Prop
  | .done a, φ => post φ a
  | .call c next, φ => ∃ ψ χ, φ.Step c ψ χ ∧
      (∀ a, (next (.ok a)).Follows post ψ) ∧ ∀ e, (next (.error e)).Follows post χ

theorem Program.Follows.bind {α β : Type} {mid : Phase → α → Prop} {post : Phase → β → Prop} {p : Program α}
    {f : α → Program β} {φ : Phase} (h : p.Follows mid φ) (hf : ∀ ψ a, mid ψ a → (f a).Follows post ψ) :
    (p >>= f).Follows post φ := by
  induction p generalizing φ with
  | done a => exact hf φ a h
  | call c next ih =>
    obtain ⟨ψ, χ, hstep, hok, herror⟩ := h
    exact ⟨ψ, χ, hstep, fun a => ih _ (hok a), fun e => ih _ (herror e)⟩

theorem Program.Follows.mono {α : Type} {post post' : Phase → α → Prop} {p : Program α} {φ : Phase}
    (h : p.Follows post φ) (hpost : ∀ ψ a, post ψ a → post' ψ a) : p.Follows post' φ := by
  induction p generalizing φ with
  | done a => exact hpost φ a h
  | call c next ih =>
    obtain ⟨ψ, χ, hstep, hok, herror⟩ := h
    exact ⟨ψ, χ, hstep, fun a => ih _ (hok a), fun e => ih _ (herror e)⟩

namespace Query

variable {α β : Type} {post : Phase → Except Error β → Prop} {φ ψ χ : Phase}

/-- A query follows the protocol if the program it stands for does. -/
def Follows (post : Phase → Except Error α → Prop) (q : Query α) (φ : Phase) : Prop :=
  Program.Follows post q.run φ

/-- A query that changes nothing. -/
def Reads (q : Query α) : Prop := Follows (fun ψ _ => ψ = .start) q .start

/-- A query that makes one change at most, and completes it or takes it back where it can. -/
def Orderly (q : Query α) : Prop := Follows Phase.Ends q .start

theorem follows_bind {mid : Phase → Except Error α → Prop} {q : Query α} {f : α → Query β} (h : Follows mid q φ)
    (herror : ∀ ψ e, mid ψ (.error e) → post ψ (.error e))
    (hok : ∀ ψ a, mid ψ (.ok a) → Follows post (f a) ψ) : Follows post (q >>= f) φ := by
  refine Program.Follows.bind h fun ψ x hx => ?_
  cases x with
  | ok a => exact hok ψ a hx
  | error e => exact herror ψ e hx

theorem follows_reads {q : Query α} {f : α → Query β} (h : Reads q) (herror : ∀ e, post .start (.error e))
    (hok : ∀ a, Follows post (f a) .start) : Follows post (q >>= f) .start :=
  follows_bind h (fun _ e hψ => hψ ▸ herror e) fun _ a hψ => hψ ▸ hok a

theorem follows_lift {x : Except Error α} {f : α → Query β} (herror : ∀ e, post φ (.error e))
    (hok : ∀ a, x = .ok a → Follows post (f a) φ) : Follows post (liftM x >>= f) φ := by
  cases x with
  | ok a => exact hok a rfl
  | error e => exact herror e

theorem follows_make {c : Call} {f : c.Reply → Query β} (hc : φ.Step c ψ χ) (herror : ∀ e, post χ (.error e))
    (hok : ∀ a, Follows post (f a) ψ) : Follows post (c.make >>= f) φ :=
  ⟨ψ, χ, hc, hok, herror⟩

theorem follows_attempt {c : Call} {f : Except Error c.Reply → Query β} (hc : φ.Step c ψ χ)
    (herror : ∀ e, Follows post (f (.error e)) χ) (hok : ∀ a, Follows post (f (.ok a)) ψ) :
    Follows post (c.attempt >>= f) φ :=
  ⟨ψ, χ, hc, hok, herror⟩

theorem discard_bind {q : Query α} {f : Unit → Query β} : (discard q >>= f) = q >>= fun _ => f () := by
  change (Function.const α () <$> q >>= f) = _
  rw [bind_map_left]

theorem Reads.mapM {f : α → Query β} (h : ∀ a, Reads (f a)) (xs : List α) : Reads (xs.mapM f) := by
  induction xs with
  | nil => exact rfl
  | cons x rest ih =>
    rw [List.mapM_cons]
    exact follows_reads (h x) (fun _ => rfl) fun _ => follows_reads ih (fun _ => rfl) fun _ => rfl

theorem Orderly.map {q : Query α} (h : Orderly q) (g : α → β) : Orderly (q >>= fun a => pure (g a)) :=
  follows_bind h (fun _ _ hends => hends.error) fun _ a hends => hends.ok (b := g a)

end Query

namespace Request

open Query Phase

/-! ## What each operation does -/

theorem createDatabase_orderly (r : Request) : Orderly r.createDatabase := by
  unfold createDatabase
  simp only [discard_bind]
  refine follows_lift (fun _ => .unchanged _) fun name _ => follows_lift (fun _ => .unchanged _) fun _ hname => ?_
  refine follows_make (.addDatabase name hname) (fun _ => .unchanged _) fun _ => ?_
  refine follows_attempt (.putDatabase name) (fun e => ?_) fun _ => ?_
  · exact follows_make (.undoDatabase name) .broken fun _ => .unchanged (.error e)
  · exact follows_make .flush .broken fun _ => .changed _

theorem dropDatabase_orderly (r : Request) (statement : Option Statement) :
    Orderly (r.dropDatabase statement) := by
  unfold dropDatabase
  simp only [discard_bind]
  refine follows_lift (fun _ => .unchanged _) fun name _ => ?_
  -- A drop that is refused has only looked the database up; one that goes on has chosen it by the same call.
  by_cases hbusy : statement.any (·.db = name)
  · refine follows_make (.read (.findDatabase name) trivial) (fun _ => .unchanged _) fun d => ?_
    rw [if_pos hbusy]
    exact Ends.unchanged (.error (.exec (.databaseBusy name)))
  · refine follows_make (.chooseDatabase name) (fun _ => .unchanged _) fun d => ?_
    rw [if_neg hbusy]
    refine follows_make (.deleteDatabase name) (fun _ => .unchanged _) fun _ => ?_
    refine follows_make (.removeDatabase name) .broken fun _ => ?_
    exact follows_make .flush .broken fun _ => .changed _

theorem store_orderly (f : Fragment) (db : String) (device : Option String) :
    Orderly (store f db device) := by
  unfold store
  simp only [discard_bind]
  refine follows_make (.addFragment db device f) (fun _ => .unchanged _) fun _ => ?_
  refine follows_attempt (.putFragment db device f) (fun e => ?_) fun _ => ?_
  -- The query fails with the error of the put, whatever the removal of the entry is answered.
  · exact follows_attempt (.releaseFragment db device f) (fun _ => .broken e) fun _ => .unchanged (.error e)
  · exact ⟨.finished, .failed, .flush, .changed, .broken⟩

theorem dropFragment_orderly (r : Request) : Orderly r.dropFragment := by
  unfold dropFragment
  simp only [discard_bind]
  refine follows_lift (fun _ => .unchanged _) fun (db, name) _ => ?_
  refine follows_make (.chooseFragment db name) (fun _ => .unchanged _) fun _ => ?_
  refine follows_make (.deleteFragment db name) (fun _ => .unchanged _) fun _ => ?_
  refine follows_make (.removeFragment db name) .broken fun _ => ?_
  exact follows_make .flush .broken fun _ => .changed _

theorem checkNew_reads (db name : String) : Reads (checkNew db name) := by
  unfold checkNew
  simp only [discard_bind]
  refine follows_make (.read (.findDatabase db) trivial) (fun _ => rfl) fun _ => ?_
  refine follows_attempt (.read (.findFragment db name) trivial) (fun e => ?_) fun _ => rfl
  split
  · rfl
  · rfl
  · rfl

theorem createFragment_orderly (r : Request) (statement : Option Statement) :
    Orderly (r.createFragment statement) := by
  unfold createFragment
  cases statement with
  | some s => exact Ends.unchanged (.error (.exec (.statementOpen s.db s.fragment.name)))
  | none =>
    refine follows_lift (fun _ => .unchanged _) fun (db, name) _ => ?_
    refine follows_reads (checkNew_reads db name) (fun _ => .unchanged _) fun _ => ?_
    refine follows_lift (fun _ => .unchanged _) fun schema _ => ?_
    refine follows_lift (fun _ => .unchanged _) fun count? _ => ?_
    dsimp only
    split
    · exact (store_orderly _ db _).map _
    · exact Ends.unchanged (.ok _)

theorem insert_orderly (r : Request) (several : Bool) (statement : Option Statement) :
    Orderly (r.insert several statement) := by
  unfold insert
  cases statement with
  | none => exact Ends.unchanged (.error (.exec .noStatement))
  | some s =>
    refine follows_lift (fun _ => .unchanged _) fun records _ => ?_
    refine follows_lift (fun _ => .unchanged _) fun last _ => ?_
    split
    · exact (store_orderly _ _ _).map _
    · exact Ends.unchanged (.ok _)

theorem loadSource_reads (r : Request) (name : String) (alias? : Option String) :
    Reads (r.loadSource name alias?) := by
  unfold loadSource
  simp only [discard_bind]
  refine follows_lift (fun _ => rfl) fun (db, name) _ => ?_
  refine follows_make (.read (.findFragment db name) trivial) (fun _ => rfl) fun _ => ?_
  exact follows_make (.read (.getFragment db name) trivial) (fun _ => rfl) fun _ => rfl

theorem loadSources_reads (r : Request) : Reads r.loadSources := by
  unfold loadSources
  refine follows_lift (fun _ => rfl) fun names _ => follows_lift (fun _ => rfl) fun aliases _ => ?_
  split
  · rfl
  · exact Reads.mapM (fun (name, i) => r.loadSource_reads name aliases[i]?) _

theorem select_reads (r : Request) : Reads r.select := by
  unfold select
  refine follows_reads r.loadSources_reads (fun _ => rfl) fun sources => ?_
  exact follows_lift (fun _ => rfl) fun request _ => follows_lift (fun _ => rfl) fun f _ => rfl

theorem createFromSelect_orderly (r : Request) : Orderly r.createFromSelect := by
  unfold createFromSelect
  refine follows_lift (fun _ => .unchanged _) fun (db, name) _ => ?_
  refine follows_reads (checkNew_reads db name) (fun _ => .unchanged _) fun _ => ?_
  refine follows_reads r.loadSources_reads (fun _ => .unchanged _) fun sources => ?_
  refine follows_lift (fun _ => .unchanged _) fun request _ => follows_lift (fun _ => .unchanged _) fun f _ => ?_
  exact (store_orderly f db _).map _

theorem createFromFile_orderly (r : Request) : Orderly r.createFromFile := by
  unfold createFromFile
  refine follows_lift (fun _ => .unchanged _) fun (db, name) _ => ?_
  refine follows_reads (checkNew_reads db name) (fun _ => .unchanged _) fun _ => ?_
  refine follows_lift (fun _ => .unchanged _) fun p _ => follows_lift (fun _ => .unchanged _) fun i _ => ?_
  refine follows_make (.read (.readFile ⟨i.source⟩) trivial) (fun _ => .unchanged _) fun text => ?_
  refine follows_lift (fun _ => .unchanged _) fun f _ => ?_
  exact (store_orderly _ db _).map _

theorem perform_orderly (r : Request) (statement : Option Statement) (op : Operation) :
    Orderly (r.perform statement op) := by
  cases op with
  | createDatabase => exact r.createDatabase_orderly.map _
  | dropDatabase => exact (r.dropDatabase_orderly statement).map _
  | createFragment => exact r.createFragment_orderly statement
  | insert => exact r.insert_orderly false statement
  | multiInsert => exact r.insert_orderly true statement
  | createFromSelect => exact r.createFromSelect_orderly.map _
  | createFromFile => exact r.createFromFile_orderly.map _
  | select => exact (follows_reads r.select_reads (fun _ => .unchanged _) fun _ => .unchanged (.ok _))
  | dropFragment => exact r.dropFragment_orderly.map _

/-- A select changes neither the engine nor the statement. -/
theorem perform_select_follows (r : Request) (statement : Option Statement) :
    Follows (fun φ x => φ = .start ∧ ∀ a, x = .ok a → a.2 = statement) (r.perform statement .select) .start := by
  refine follows_reads r.select_reads (fun _ => ⟨rfl, nofun⟩) fun result => ⟨rfl, fun a ha => ?_⟩
  cases ha
  rfl

theorem perform_follows (r : Request) (statement : Option Statement) (op : Operation) :
    Follows (fun φ x => Ends φ x ∧ (op = .select → φ = .start ∧ ∀ a, x = .ok a → a.2 = statement))
      (r.perform statement op) .start := by
  by_cases hop : op = .select
  · subst hop
    refine Program.Follows.mono (r.perform_select_follows statement) fun ψ x hx => ⟨?_, fun _ => hx⟩
    obtain ⟨rfl, -⟩ := hx
    exact .unchanged x
  · exact Program.Follows.mono (r.perform_orderly statement op) fun ψ x hx => ⟨hx, fun h => absurd h hop⟩

end Request

/-! ## Queries -/

namespace Session

open Phase

/-- Whether a query text asks for an operation. -/
def Dispatches (query : String) (op : Operation) : Prop :=
  ∃ params, Params.parse query = .ok params ∧ params.operation = .ok op

theorem Dispatches.unique {query : String} {op op' : Operation} (h : Dispatches query op)
    (h' : Dispatches query op') : op = op' := by
  obtain ⟨params, hparams, hop⟩ := h
  obtain ⟨params', hparams', hop'⟩ := h'
  obtain rfl : params = params' := Except.ok.inj (hparams.symm.trans hparams')
  exact Except.ok.inj (hop.symm.trans hop')

/-- A query text asks for an operation, or is refused at once. -/
theorem execute_cases (s : Session) (query : String) (args : List Argument) :
    (∃ params op, Dispatches query op ∧ s.execute query args = s.perform params args op) ∨
    ((∀ op, ¬Dispatches query op) ∧ ∃ e, s.execute query args = .done (.error e, s)) := by
  unfold execute Dispatches
  cases hparams : Params.parse query with
  | error e => exact .inr ⟨by simp, e, rfl⟩
  | ok params =>
    cases hop : params.operation with
    | error e => exact .inr ⟨by simp [hop], e, by simp [hop, bind, Except.bind]⟩
    | ok op => exact .inl ⟨params, op, ⟨params, rfl, hop⟩, by simp [hop, bind, Except.bind, pure, Except.pure]⟩

theorem perform_follows (s : Session) (params : Params) (args : List Argument) (op : Operation) :
    (s.perform params args op).Follows
      (fun φ a => Ends φ a.1 ∧
        (∀ e, a.1 = .error e → a.2 = { s with statement := op.statementAfterFailure s.statement }) ∧
        (op = .select → φ = .start ∧ a.2 = s)) .start := by
  -- The request decides what becomes of the world, and the operation what becomes of the statement.
  refine Program.Follows.bind (Request.perform_follows ⟨s.engine, params, args⟩ s.statement op) fun φ x hx => ?_
  obtain ⟨hends, hselect⟩ := hx
  cases x with
  | error e =>
    refine ⟨hends.error, fun _ _ => rfl, fun hop => ⟨(hselect hop).1, ?_⟩⟩
    subst hop
    rfl
  | ok a =>
    obtain ⟨result, statement⟩ := a
    refine ⟨hends.ok, nofun, fun hop => ⟨(hselect hop).1, ?_⟩⟩
    have hsame := (hselect hop).2 _ rfl
    simp only at hsame
    rw [hsame]

/-- How a query of a session may end. -/
structure Settles (s : Session) (query : String) (φ : Phase) (a : Except Error QueryResult × Session) : Prop where
  ends : Ends φ a.1
  /-- A failed insert discards the statement. -/
  discards : ∀ e, a.1 = .error e → Dispatches query .insert ∨ Dispatches query .multiInsert →
    a.2 = { s with statement := none }
  /-- Any other failed query leaves the session as it is. -/
  keeps : ∀ e, a.1 = .error e → ¬Dispatches query .insert → ¬Dispatches query .multiInsert → a.2 = s
  /-- A select changes nothing, whether it fails or not. -/
  selects : Dispatches query .select → φ = .start ∧ a.2 = s

theorem execute_follows (s : Session) (query : String) (args : List Argument) :
    (s.execute query args).Follows (s.Settles query) .start := by
  rcases s.execute_cases query args with ⟨params, op, hop, heq⟩ | ⟨hnone, e, heq⟩
  · rw [heq]
    refine (s.perform_follows params args op).mono fun φ a ⟨hends, hfails, hselects⟩ => ?_
    refine ⟨hends, fun e he h => ?_, fun e he hi hm => ?_, fun h => hselects (hop.unique h)⟩
    · rw [hfails e he]
      rcases h with h | h
      · rw [hop.unique h]
        rfl
      · rw [hop.unique h]
        rfl
    · rw [hfails e he]
      cases op with
      | insert => exact absurd hop hi
      | multiInsert => exact absurd hop hm
      | _ => rfl
  · rw [heq]
    exact ⟨.unchanged _, fun _ _ h => (h.elim (hnone _) (hnone _)).elim, fun _ _ _ _ => rfl,
      fun h => (hnone _ h).elim⟩

end Session

end FragmentEngine
