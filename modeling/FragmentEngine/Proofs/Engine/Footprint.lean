import FragmentEngine.Proofs.Engine.Protocol
import FragmentEngine.Proofs.Insert.Statement
/-!
# The calls of a query

Which calls a query may make, whatever they are answered: it changes nothing but the database or the fragment that
it is about. What these calls keep is kept by the query.
-/

namespace FragmentEngine

/-! ## Programs -/

namespace Program

variable {α β : Type} {allowed : Call → Prop}

/-- Every call that the program may make is allowed. -/
def Uses (allowed : Call → Prop) : Program α → Prop
  | .done _ => True
  | .call c next => allowed c ∧ ∀ reply, (next reply).Uses allowed

theorem Uses.bind {p : Program α} {f : α → Program β} (h : p.Uses allowed) (hf : ∀ a, (f a).Uses allowed) :
    (p >>= f).Uses allowed := by
  induction p with
  | done a => exact hf a
  | call c next ih => exact ⟨h.1, fun reply => ih reply (h.2 reply)⟩

theorem Uses.mono {allowed' : Call → Prop} {p : Program α} (h : p.Uses allowed)
    (himp : ∀ c, allowed c → allowed' c) : p.Uses allowed' := by
  induction p with
  | done a => trivial
  | call c next ih => exact ⟨himp c h.1, fun reply => ih reply (h.2 reply)⟩

/-- What every allowed call keeps is kept by a run. -/
theorem Uses.run {P : World → Prop} {p : Program α} {w : World} (h : p.Uses allowed)
    (hkeep : ∀ c w, allowed c → P w → P (c.perform w).2) (hw : P w) : P (p.run w).2 := by
  induction p generalizing w with
  | done a => exact hw
  | call c next ih => exact ih _ (h.2 _) (hkeep c w h.1 hw)

end Program

/-! ## Queries -/

namespace Query

variable {α β : Type} {allowed : Call → Prop}

def Uses (allowed : Call → Prop) (q : Query α) : Prop := Program.Uses allowed q.run

theorem uses_pure (a : α) : Uses allowed (pure a : Query α) := trivial

theorem uses_throw (e : Error) : Uses allowed (throw e : Query α) := trivial

theorem uses_bind {q : Query α} {f : α → Query β} (h : Uses allowed q) (hf : ∀ a, Uses allowed (f a)) :
    Uses allowed (q >>= f) := by
  refine Program.Uses.bind h fun x => ?_
  cases x with
  | ok a => exact hf a
  | error e => trivial

theorem uses_lift {x : Except Error α} {f : α → Query β} (hf : ∀ a, x = .ok a → Uses allowed (f a)) :
    Uses allowed (liftM x >>= f) := by
  cases x with
  | ok a => exact hf a rfl
  | error e => trivial

theorem uses_of_lift (x : Except Error α) : Uses allowed (liftM x : Query α) := by cases x <;> trivial

theorem uses_make {c : Call} (hc : allowed c) : Uses allowed c.make := ⟨hc, fun _ => trivial⟩

theorem uses_attempt {c : Call} (hc : allowed c) : Uses allowed c.attempt := ⟨hc, fun _ => trivial⟩

theorem uses_mapM {f : α → Query β} (h : ∀ a, Uses allowed (f a)) (xs : List α) : Uses allowed (xs.mapM f) := by
  induction xs with
  | nil => exact uses_pure []
  | cons x rest ih =>
    rw [List.mapM_cons]
    exact uses_bind (h x) fun _ => uses_bind ih fun _ => uses_pure _

end Query

/-! ## Selected fragments -/

theorem SelectRequest.name_of_execute {request : SelectRequest} {context : Context} {sources : List Source}
    {f : Fragment} (h : request.execute context sources = .ok f) : f.name = request.name := by
  unfold SelectRequest.execute at h
  obtain ⟨condition, -, h⟩ := Outcome.bind_eq_ok.1 h
  obtain ⟨groupBy, -, h⟩ := Outcome.bind_eq_ok.1 h
  obtain ⟨selection, -, h⟩ := Outcome.bind_eq_ok.1 h
  obtain ⟨groups, -, h⟩ := Outcome.bind_eq_ok.1 h
  unfold Projection.project at h
  dsimp only at h
  split at h
  · cases h
  · split at h
    · cases h
    · obtain ⟨columns, -, h⟩ := Outcome.bind_eq_ok.1 h
      cases h
      rfl

/-! ## What a request is about -/

namespace Request

/-- Whether a request is to store a fragment at a place, at once or when it ends the running statement. -/
def Aims (r : Request) (statement : Option Statement) (place : String × String) : Operation → Prop
  | .createFragment | .createFromSelect | .createFromFile => r.target = .ok place
  | .insert | .multiInsert =>
    ∃ s ∈ statement, s.place = place ∧ s.EndsWith (r.params.flag "final_statement")
  | _ => False

def MakesDatabase (r : Request) (db : String) (op : Operation) : Prop :=
  op = .createDatabase ∧ r.params.require "db_name" = .ok db

def DropsDatabase (r : Request) (db : String) (op : Operation) : Prop :=
  op = .dropDatabase ∧ r.params.require "db_name" = .ok db

def DropsFragment (r : Request) (place : String × String) (op : Operation) : Prop :=
  op = .dropFragment ∧ r.target = .ok place

/-- The calls that a request may make. It may look at anything, and drops no database that its own statement is
for. -/
def MayCall (r : Request) (statement : Option Statement) (op : Operation) : Call → Prop
  | .addDatabase db | .putDatabase db => r.MakesDatabase db op
  | .deleteDatabase db => r.DropsDatabase db op ∧ ∀ s ∈ statement, s.db ≠ db
  | .removeDatabase db => r.MakesDatabase db op ∨ (r.DropsDatabase db op ∧ ∀ s ∈ statement, s.db ≠ db)
  | .addFragment f => r.Aims statement (f.db, f.name) op
  | .putFragment db f => r.Aims statement (db, f.name) op
  | .deleteFragment db name => r.DropsFragment (db, name) op
  | .removeFragment db name => r.Aims statement (db, name) op ∨ r.DropsFragment (db, name) op
  | .listDatabases | .findDatabase _ | .findFragment _ _ | .getFragment _ _ | .readFile _ | .flush => True

open Query

variable {r : Request} {statement : Option Statement} {op : Operation} {db name : String}

theorem createDatabase_uses : Uses (r.MayCall statement .createDatabase) r.createDatabase := by
  unfold createDatabase
  simp only [discard_bind]
  refine uses_lift fun name hname => uses_lift fun _ _ => ?_
  refine uses_bind (uses_make ⟨rfl, hname⟩) fun _ => uses_bind (uses_attempt ⟨rfl, hname⟩) fun outcome => ?_
  cases outcome with
  | error e => exact uses_bind (uses_make (.inl ⟨rfl, hname⟩)) fun _ => uses_throw e
  | ok => exact uses_bind (uses_make trivial) fun _ => uses_pure _

theorem dropDatabase_uses : Uses (r.MayCall statement .dropDatabase) (r.dropDatabase statement) := by
  unfold dropDatabase
  simp only [discard_bind]
  refine uses_lift fun name hname => uses_bind (uses_make trivial) fun d => ?_
  by_cases hbusy : statement.any (·.db = name)
  · rw [if_pos hbusy]
    exact uses_throw _
  · rw [if_neg hbusy]
    have hdrops : r.DropsDatabase name .dropDatabase := ⟨rfl, hname⟩
    have hfree : ∀ s ∈ statement, s.db ≠ name := fun s hs he =>
      hbusy ((Option.any_eq_true _ _).2 ⟨s, hs, decide_eq_true he⟩)
    refine uses_bind (uses_make ⟨hdrops, hfree⟩) fun _ => ?_
    refine uses_bind (uses_make (.inr ⟨hdrops, hfree⟩)) fun _ => ?_
    exact uses_bind (uses_make trivial) fun _ => uses_pure _

theorem store_uses {f : Fragment} {device : Option String} (h : r.Aims statement (db, f.name) op) :
    Uses (r.MayCall statement op) (store f db device) := by
  unfold store
  simp only [discard_bind]
  refine uses_bind (uses_make h) fun _ => uses_bind (uses_attempt h) fun outcome => ?_
  cases outcome with
  | error e => exact uses_bind (uses_attempt (.inl h)) fun _ => uses_throw e
  | ok => exact uses_make trivial

theorem checkNew_uses (db name : String) : Uses (r.MayCall statement op) (checkNew db name) := by
  unfold checkNew
  simp only [discard_bind]
  refine uses_bind (uses_make trivial) fun _ => uses_bind (uses_attempt trivial) fun outcome => ?_
  split
  · exact uses_throw _
  · exact uses_pure _
  · exact uses_throw _

theorem dropFragment_uses : Uses (r.MayCall statement .dropFragment) r.dropFragment := by
  unfold dropFragment
  simp only [discard_bind]
  refine uses_lift fun (db, name) htarget => uses_bind (uses_make trivial) fun _ => ?_
  refine uses_bind (uses_make ⟨rfl, htarget⟩) fun _ => uses_bind (uses_make (.inr ⟨rfl, htarget⟩)) fun _ => ?_
  exact uses_bind (uses_make trivial) fun _ => uses_pure _

theorem createFragment_uses : Uses (r.MayCall statement .createFragment) (r.createFragment statement) := by
  unfold createFragment
  cases statement with
  | some s => exact uses_throw (.exec (.statementOpen s.db s.fragment.name))
  | none =>
    refine uses_lift fun (db, name) htarget => uses_bind (checkNew_uses db name) fun _ => ?_
    refine uses_lift fun schema _ => uses_lift fun count? _ => ?_
    dsimp only
    split
    · exact uses_bind (store_uses htarget) fun _ => uses_pure _
    · exact uses_pure _

theorem insert_uses {several : Bool} (hop : op = .insert ∨ op = .multiInsert) :
    Uses (r.MayCall statement op) (r.insert several statement) := by
  unfold insert
  cases statement with
  | none => exact uses_throw (.exec .noStatement)
  | some s =>
    refine uses_lift fun records _ => uses_lift fun last hlast => ?_
    have hplace := s.append_place records (r.params.flag "final_statement")
    have hends := Statement.append_eq_ok (Prod.ext hlast rfl)
    split
    · rename_i htrue
      refine uses_bind (store_uses ?_) fun _ => uses_pure _
      rcases hop with rfl | rfl <;> exact ⟨s, rfl, hplace.symm, hends.1 htrue⟩
    · exact uses_pure _

theorem mayCall_of_isRead {c : Call} (h : c.IsRead) : r.MayCall statement op c := by
  cases c <;> first | exact h.elim | trivial

theorem loadSources_uses {allowed : Call → Prop} (hread : ∀ c : Call, c.IsRead → allowed c) :
    Uses allowed r.loadSources := by
  unfold loadSources
  refine uses_lift fun names _ => uses_lift fun aliases _ => ?_
  split
  · exact uses_throw _
  · refine uses_mapM (fun (name, i) => ?_) _
    unfold loadSource
    simp only [discard_bind]
    refine uses_lift fun (db, name) _ => uses_bind (uses_make (hread (.findFragment db name) trivial)) fun _ => ?_
    exact uses_bind (uses_make (hread (.getFragment db name) trivial)) fun _ => uses_pure _

theorem selectRequest_name {request : SelectRequest} (h : r.selectRequest name = .ok request) :
    request.name = name := by
  unfold selectRequest at h
  obtain ⟨_, -, h⟩ := Outcome.bind_eq_ok.1 h
  obtain ⟨_, -, h⟩ := Outcome.bind_eq_ok.1 h
  obtain ⟨_, -, h⟩ := Outcome.bind_eq_ok.1 h
  obtain ⟨_, -, h⟩ := Outcome.bind_eq_ok.1 h
  obtain ⟨_, -, h⟩ := Outcome.bind_eq_ok.1 h
  obtain ⟨_, -, h⟩ := Outcome.bind_eq_ok.1 h
  cases h
  rfl

theorem createFromSelect_uses : Uses (r.MayCall statement .createFromSelect) r.createFromSelect := by
  unfold createFromSelect
  refine uses_lift fun (db, name) htarget => uses_bind (checkNew_uses db name) fun _ => ?_
  refine uses_bind (loadSources_uses fun _ => mayCall_of_isRead) fun sources => ?_
  refine uses_lift fun request hrequest => uses_lift fun f hf => ?_
  refine uses_bind (store_uses ?_) fun _ => uses_pure _
  rw [SelectRequest.name_of_execute hf, selectRequest_name hrequest]
  exact htarget

theorem createFromFile_uses : Uses (r.MayCall statement .createFromFile) r.createFromFile := by
  unfold createFromFile
  refine uses_lift fun (db, name) htarget => uses_bind (checkNew_uses db name) fun _ => ?_
  refine uses_lift fun produce _ => uses_lift fun request _ => uses_bind (uses_make trivial) fun text => ?_
  refine uses_lift fun f _ => uses_bind (store_uses htarget) fun _ => uses_pure _

theorem select_uses : Uses (r.MayCall statement op) r.select := by
  unfold select
  refine uses_bind (loadSources_uses fun _ => mayCall_of_isRead) fun sources => uses_lift fun request _ => ?_
  exact uses_lift fun f _ => uses_of_lift _

theorem perform_uses (r : Request) (statement : Option Statement) (op : Operation) :
    Uses (r.MayCall statement op) (r.perform statement op) := by
  cases op with
  | createDatabase => exact uses_bind createDatabase_uses fun _ => uses_pure _
  | dropDatabase => exact uses_bind dropDatabase_uses fun _ => uses_pure _
  | createFragment => exact createFragment_uses
  | insert => exact insert_uses (.inl rfl)
  | multiInsert => exact insert_uses (.inr rfl)
  | createFromSelect => exact uses_bind createFromSelect_uses fun _ => uses_pure _
  | createFromFile => exact uses_bind createFromFile_uses fun _ => uses_pure _
  | select => exact uses_bind select_uses fun _ => uses_pure _
  | dropFragment => exact uses_bind dropFragment_uses fun _ => uses_pure _

end Request

/-! ## Queries of a session -/

namespace Session

variable {s : Session} {query : String} {args : List Argument} {params : Params} {op : Operation}

theorem execute_eq_perform (hparams : Params.parse query = .ok params) (hop : params.operation = .ok op) :
    s.execute query args = s.perform params args op := by
  unfold execute
  rw [hparams]
  simp [hop, bind, Except.bind, pure, Except.pure]

/-- Whether a query text asks a session for an operation of some kind. -/
def Asks (s : Session) (query : String) (args : List Argument) (P : Request → Operation → Prop) : Prop :=
  ∃ params op, Params.parse query = .ok params ∧ params.operation = .ok op ∧ P ⟨s.engine, params, args⟩ op

/-- A query text asks for an operation, or is refused at once. -/
theorem execute_asks (s : Session) (query : String) (args : List Argument) :
    (∃ params op, Params.parse query = .ok params ∧ params.operation = .ok op ∧
      s.execute query args = s.perform params args op) ∨
    ∃ e, s.execute query args = .done (.error e, s) := by
  cases hparams : Params.parse query with
  | error e => exact .inr ⟨e, by simp [execute, hparams, bind, Except.bind]⟩
  | ok params =>
    cases hop : params.operation with
    | error e => exact .inr ⟨e, by simp [execute, hparams, hop, bind, Except.bind]⟩
    | ok op => exact .inl ⟨params, op, rfl, hop, execute_eq_perform hparams hop⟩

theorem execute_uses (s : Session) (query : String) (args : List Argument) :
    (s.execute query args).Uses fun c => s.Asks query args fun r op => r.MayCall s.statement op c := by
  rcases s.execute_asks query args with ⟨params, op, hparams, hop, heq⟩ | ⟨e, heq⟩
  · rw [heq]
    have huses : (s.perform params args op).Uses (Request.MayCall ⟨s.engine, params, args⟩ s.statement op) := by
      refine Program.Uses.bind (Request.perform_uses _ s.statement op) fun x => ?_
      cases x <;> trivial
    exact huses.mono fun c hc => ⟨params, op, hparams, hop, hc⟩
  · rw [heq]
    trivial

end Session

end FragmentEngine
