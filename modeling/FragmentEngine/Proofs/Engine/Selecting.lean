import FragmentEngine.Proofs.Engine.FirstStored
import FragmentEngine.Proofs.Engine.Storing
import FragmentEngine.Proofs.Engine.Upkeep
import FragmentEngine.Proofs.Select.AllColumns
/-!
# What a select makes

Loading sources changes nothing. So a select and a request that stores a selection make the same fragment up to its
name, which is a matter of the world they find and of some of their parameters.
-/

namespace FragmentEngine

variable {w w' : World}

/-! ## Calls -/

theorem World.canKeep_of_isRead {c : Call} (h : c.IsRead) : w.CanKeep c := by
  cases c <;> first | exact h.elim | trivial

namespace Program

variable {α β : Type} {allowed : Call → Prop}

theorem calls_bind (w : World) (p : Program α) (f : α → Program β) :
    (p >>= f).calls w = p.calls w ++ (f (p.run w).1).calls (p.run w).2 := by
  induction p generalizing w with
  | done a => rfl
  | call c next ih => exact congrArg (c :: ·) (ih _ _)

theorem Uses.calls {p : Program α} (h : p.Uses allowed) (w : World) : ∀ c ∈ p.calls w, allowed c := by
  induction p generalizing w with
  | done a => exact nofun
  | call c next ih => exact List.forall_mem_cons.2 ⟨h.1, ih _ (h.2 _) _⟩

end Program

namespace Query

variable {α β : Type} {A : String × String → Fragment → Prop}

/-- The calls that a query makes. -/
def callsIn (q : Query α) (w : World) : List Call := Program.calls w (ExceptT.run q)

theorem callsIn_bind (q : Query α) (f : α → Query β) (w : World) : (q >>= f).callsIn w = q.callsIn w ++
    match q.runIn w with
    | (.ok a, w) => (f a).callsIn w
    | (.error _, _) => [] := by
  unfold callsIn runIn
  rw [ExceptT.run_bind, Program.calls_bind]
  rcases Program.run w (ExceptT.run q) with ⟨e | a, w⟩ <;> rfl

theorem mem_callsIn_left {q : Query α} {f : α → Query β} {c : Call} (h : c ∈ q.callsIn w) :
    c ∈ (q >>= f).callsIn w := by
  rw [callsIn_bind]
  exact List.mem_append_left _ h

theorem mem_callsIn_right {q : Query α} {f : α → Query β} {c : Call} {a : α} (hq : q.runIn w = (.ok a, w'))
    (h : c ∈ (f a).callsIn w') : c ∈ (q >>= f).callsIn w := by
  rw [callsIn_bind, hq]
  exact List.mem_append_right _ h

theorem runIn_of_reads {q : Query α} (h : Uses Call.IsRead q) (w : World) : (q.runIn w).2 = w :=
  Program.Uses.run (P := (· = w)) h (fun _ _ hread hw => hw ▸ perform_read hread _) rfl

end Query

/-! ## Selections -/

/-- A fragment that a select can have made is found at a place. -/
structure World.HasSelection (w : World) (db name : String) (f : Fragment) : Prop where
  entry : ∃ entry, w.catalog.fragment db name = .ok entry
  stored : w.getFragment db name = .ok f
  wellFormed : f.WellFormed
  names_nodup : f.schema.names.Nodup
  names_ne_nil : f.schema.names ≠ []

/-- How it ends to store a selection: it has failed itself, its name is too long for a file, or it is stored. -/
inductive World.EndsStoring (w : World) (db name : String) :
    Except Error Fragment → Except Error QueryResult → World → Prop
  | failed (e : Error) (w' : World) : EndsStoring w db name (.error e) (.error e) w'
  | tooLong {f : Fragment} (w' : World) (hwell : f.WellFormed) (hlong : ¬w.CanName name) :
      EndsStoring w db name (.ok f) (.error (.disk .nameTooLong)) w'
  | stored {f : Fragment} {w' : World} (said : QueryResult) (hname : w.CanName name)
      (h : w'.HasSelection db name f) : EndsStoring w db name (.ok f) (.ok said) w'

namespace World.EndsStoring

variable {db name : String} {selected : Except Error Fragment} {answer : Except Error QueryResult}

/-- It fails as the selection fails, or if the name is too long. -/
theorem error_iff (h : w.EndsStoring db name selected answer w') (error : Error) : answer = .error error ↔
    selected >>= QueryResult.ofFragment = .error error ∨
      (¬w.CanName name ∧ error = .disk .nameTooLong ∧ ∃ result, selected >>= QueryResult.ofFragment = .ok result) := by
  cases h with
  | failed e w' => exact ⟨.inl, fun h => h.resolve_right nofun⟩
  | @tooLong f w' hwell hlong =>
    obtain ⟨result, hresult⟩ := hwell.ofFragment
    refine ⟨fun h => .inr ⟨hlong, (Except.error.inj h).symm, result, hresult⟩, fun h => ?_⟩
    rcases h with hfailed | ⟨-, rfl, -⟩
    · exact absurd (hresult.symm.trans hfailed) nofun
    · rfl
  | @stored f w' said hname hhas =>
    obtain ⟨result, hresult⟩ := hhas.wellFormed.ofFragment
    refine ⟨nofun, fun h => ?_⟩
    rcases h with hfailed | ⟨hlong, -⟩
    · exact absurd (hresult.symm.trans hfailed) nofun
    · exact absurd hname hlong

theorem of_ok {said : QueryResult} (h : w.EndsStoring db name selected (.ok said) w') :
    ∃ f, selected = .ok f ∧ w'.HasSelection db name f := by
  cases h with
  | @stored f w' said hname hhas => exact ⟨f, rfl, hhas⟩

end World.EndsStoring

namespace Request

open Query

variable {r r' : Request} {db name : String} {f : Fragment} {e : Error}

/-- The keys that say what is selected. -/
def selectionKeys : List String :=
  ["db_name", "from", "from_alias", "field", "field_alias", "where", "group", "order", "limit", "sequential_id"]

/-- Two requests are for one and the same selection. -/
structure SelectsLike (r r' : Request) : Prop where
  engine : r.engine = r'.engine
  args : r.args = r'.args
  params : ∀ key ∈ selectionKeys, r.params.get? key = r'.params.get? key

theorem loadSources_runIn (r : Request) (w : World) : r.loadSources.runIn w = ((r.loadSources.runIn w).1, w) :=
  Prod.ext rfl (runIn_of_reads (loadSources_uses fun _ => id) w)

/-- The fragment of a name that a request selects. -/
def selectedIn (r : Request) (name : String) (w : World) : Except Error Fragment := do
  let sources ← (r.loadSources.runIn w).1
  let request ← r.selectRequest name
  request.execute (r.engine.context r.args) sources

theorem selectRequest_named (r : Request) (name name' : String) :
    r.selectRequest name' = (r.selectRequest name).map fun request => { request with name := name' } := by
  unfold selectRequest
  simp only [Outcome.map_bind]
  rfl

/-- The name has no influence on what is selected. -/
theorem selectedIn_named (r : Request) (name name' : String) (w : World) :
    r.selectedIn name' w = (r.selectedIn name w).map fun f => { f with name := name' } := by
  unfold selectedIn
  rw [r.selectRequest_named name name']
  cases (r.loadSources.runIn w).1 with
  | error e => rfl
  | ok sources =>
    cases r.selectRequest name with
    | error e => rfl
    | ok request => exact request.execute_named name' (r.engine.context r.args) sources

theorem shown_named (r : Request) (name name' : String) (w : World) :
    (r.selectedIn name' w >>= QueryResult.ofFragment) = (r.selectedIn name w >>= QueryResult.ofFragment) := by
  rw [r.selectedIn_named name name']
  cases r.selectedIn name w with
  | error e => rfl
  | ok f => exact QueryResult.ofFragment_congr rfl rfl rfl

theorem loadSources_congr (h : r.SelectsLike r') : r.loadSources = r'.loadSources := by
  have hdb := h.params "db_name" (by decide)
  have hfrom := h.params "from" (by decide)
  have haliases := h.params "from_alias" (by decide)
  unfold loadSources loadSource Params.requireList Params.require Params.list
  rw [hdb, hfrom, haliases]

theorem selectedIn_congr (h : r.SelectsLike r') (name : String) (w : World) :
    r.selectedIn name w = r'.selectedIn name w := by
  have hfield := h.params "field" (by decide)
  have haliases := h.params "field_alias" (by decide)
  have hwhere := h.params "where" (by decide)
  have hgroup := h.params "group" (by decide)
  have horder := h.params "order" (by decide)
  have hlimit := h.params "limit" (by decide)
  have hids := h.params "sequential_id" (by decide)
  unfold selectedIn selectRequest Params.requireList Params.require Params.list Params.long?
  rw [loadSources_congr h, hfield, haliases, hwhere, hgroup, horder, hlimit, hids, h.engine, h.args]

/-! ## Requests that select -/

/-- Makes the fragment of a name that is selected. -/
def selection (r : Request) (name : String) : Query Fragment := do
  let sources ← r.loadSources
  let request ← r.selectRequest name
  request.execute (r.engine.context r.args) sources

theorem selection_runIn (r : Request) (name : String) (w : World) :
    (r.selection name).runIn w = (r.selectedIn name w, w) := by
  unfold selection selectedIn
  rw [runIn_bind, loadSources_runIn]
  cases (r.loadSources.runIn w).1 with
  | error e => rfl
  | ok sources =>
    cases r.selectRequest name with
    | error e => rfl
    | ok request => exact runIn_lift (request.execute (r.engine.context r.args) sources) w

/-- A select changes nothing, and answers with what it selects. -/
theorem select_runIn (r : Request) (w : World) : r.select.runIn w =
    ((do QueryResult.ofFragment (← r.selectedIn ((r.params.get? "frag_name").getD "result") w)), w) := by
  have heq : r.select = (r.selection ((r.params.get? "frag_name").getD "result") >>= fun f =>
      liftM (QueryResult.ofFragment f)) := by
    unfold select selection
    simp only [bind_assoc]
  rw [heq, runIn_bind, selection_runIn]
  cases r.selectedIn ((r.params.get? "frag_name").getD "result") w with
  | error e => rfl
  | ok f => exact runIn_lift (QueryResult.ofFragment f) w

/-- Stores a selection and says so. -/
def storeSelection (r : Request) (db : String) (f : Fragment) : Query QueryResult := do
  store f db (r.params.get? "device")
  return .written f.rowCount s!"Fragment '{db}.{f.name}' created with {f.rowCount} row(s)"

theorem createFromSelect_eq (r : Request) : r.createFromSelect = (do
    let (db, name) ← r.target
    checkNew db name
    r.storeSelection db (← r.selection name)) := by
  unfold createFromSelect selection storeSelection
  simp only [bind_assoc]

section

variable (htarget : r.target = .ok (db, name)) (hdb : db ∈ w.catalog.databases)
  (hnew : Catalog.key db name ∉ w.catalog.fragments)

include htarget hdb hnew

/-- What is selected in the world as it is, is stored. -/
theorem createFromSelect_runIn : r.createFromSelect.runIn w = match r.selectedIn name w with
    | .ok f => (r.storeSelection db f).runIn w
    | .error e => (.error e, w) := by
  rw [createFromSelect_eq, htarget, runIn_bind_ok (runIn_lift _ w)]
  dsimp only
  rw [runIn_bind_ok (checkNew_eq_ok.2 ⟨hdb, hnew, rfl⟩), runIn_bind, selection_runIn]
  cases r.selectedIn name w <;> rfl

theorem createFromSelect_puts (hf : r.selectedIn name w = .ok f) (hname : f.name = name) :
    .putFragment db f ∈ r.createFromSelect.callsIn w := by
  subst hname
  have hselection : (r.selection f.name).runIn w = (.ok f, w) := by rw [selection_runIn, hf]
  obtain ⟨c', hadd, -⟩ := Catalog.addFragment_new hdb hnew (r.params.get? "device")
  rw [createFromSelect_eq, htarget]
  refine mem_callsIn_right (runIn_lift _ w) (mem_callsIn_right (checkNew_eq_ok.2 ⟨hdb, hnew, rfl⟩) ?_)
  refine mem_callsIn_right hselection (mem_callsIn_left ?_)
  refine mem_callsIn_right (q := (Call.addFragment _).make) (World.perform_addFragment hadd) (mem_callsIn_left ?_)
  exact List.mem_singleton_self _

end

/-! ## What is selected -/

/-- A selection has its name, and its columns have distinct names; it is well-formed if all stored fragments are. -/
theorem selected_sound (hw : w.Holds fun _ f => f.WellFormed) (hf : r.selectedIn name w = .ok f) :
    f.name = name ∧ f.WellFormed ∧ f.schema.names.Nodup ∧ f.schema.names ≠ [] := by
  obtain ⟨sources, hsources, hf⟩ := Outcome.bind_eq_ok.1 hf
  obtain ⟨request, hrequest, hf⟩ := Outcome.bind_eq_ok.1 hf
  have hkeep : ∀ c ∈ r.loadSources.callsIn w, w.CanKeep c := fun c hc =>
    World.canKeep_of_isRead (Program.Uses.calls (loadSources_uses (r := r) fun _ => id) w c hc)
  obtain ⟨-, hpost, -⟩ := Program.Upholds.run (loadSources_upholds (r := r)) hw hkeep
  obtain ⟨p, selection, groups, hproject⟩ := SelectRequest.project_of_execute hf
  refine ⟨(SelectRequest.name_of_execute hf).trans (selectRequest_name hrequest), ?_,
    Projection.nodup_names_of_project hproject, Projection.names_ne_nil_of_project hproject⟩
  exact Projection.wellFormed_of_project (fun s hs => (hpost sources hsources s hs).elim fun _ => id) hproject

theorem check_of_target (h : r.target = .ok (db, name)) : Name.check db = .ok () ∧ Name.check name = .ok () := by
  obtain ⟨text, -, h⟩ := Outcome.bind_eq_ok.1 h
  exact check_of_qualified h

/-- A selection is stored as it is, unless it fails or the file system refuses its name. -/
theorem createFromSelect_ends (hready : w.Ready) (hholds : w.Holds fun _ f => f.WellFormed)
    (htarget : r.target = .ok (db, name)) (hdb : db ∈ w.catalog.databases)
    (hnew : Catalog.key db name ∉ w.catalog.fragments)
    (hkeep : w.CanName name → ∀ c ∈ r.createFromSelect.callsIn w, w.CanKeep c) :
    w.EndsStoring db name (r.selectedIn name w) (r.createFromSelect.runIn w).1 (r.createFromSelect.runIn w).2 := by
  rw [createFromSelect_runIn htarget hdb hnew]
  cases hf : r.selectedIn name w with
  | error e => exact .failed e w
  | ok f =>
    obtain ⟨rfl, hwell, hnames, hne⟩ := selected_sound hholds hf
    have hname := (check_of_target htarget).2
    dsimp only
    by_cases hfits : w.CanName f.name
    · have hput := hkeep hfits _ (createFromSelect_puts htarget hdb hnew hf rfl)
      obtain ⟨w', hstore, hfound, hget⟩ :=
        store_new hready hname hfits hput hdb hnew (r.params.get? "device")
      rw [storeSelection, runIn_bind_ok hstore]
      exact .stored _ hfits ⟨⟨_, hfound⟩, hget, hwell, hnames, hne⟩
    · obtain ⟨w', hstore⟩ := store_tooLong hready hname hfits hdb hnew (r.params.get? "device")
      rw [storeSelection, runIn_bind_error hstore]
      exact .tooLong w' hwell hfits

end Request

/-! ## Queries that leave the statement as it is -/

namespace Shared

open Query

variable {query : String} {params : Params} {op : Operation}

/-- Such a query is answered and changes the world as its operation does. -/
theorem execute_keeping (S : Shared) (i : Nat) (args : List Argument) (hparams : Params.parse query = .ok params)
    (hop : params.operation = .ok op) {q : Query QueryResult}
    (hperform : ∀ statement, Request.perform ⟨(S.sessions i).engine, params, args⟩ statement op =
      q >>= fun result => pure (result, statement)) :
    S.answer i query args = (q.runIn S.world).1 ∧ (S.execute i query args).world = (q.runIn S.world).2 ∧
      ∀ c ∈ q.callsIn S.world, c ∈ ((S.sessions i).execute query args).calls S.world := by
  have hrun : (Request.perform ⟨(S.sessions i).engine, params, args⟩ (S.sessions i).statement op).runIn S.world =
      ((q.runIn S.world).1.map (·, (S.sessions i).statement), (q.runIn S.world).2) := by
    rw [hperform, runIn_bind]
    rcases q.runIn S.world with ⟨e | result, w⟩ <;> rfl
  have hexecute := Session.run_perform (S.sessions i) params args op S.world
  rw [hrun, ← Session.execute_eq_perform hparams hop] at hexecute
  refine ⟨?_, ?_, fun c hc => ?_⟩
  · unfold answer
    rw [hexecute]
    cases (q.runIn S.world).1 <;> rfl
  · unfold execute
    rw [hexecute]
    cases (q.runIn S.world).1 <;> rfl
  · rw [Session.execute_eq_perform hparams hop]
    unfold Session.perform
    rw [Program.calls_bind, hperform]
    exact List.mem_append_left _ (mem_callsIn_left hc)

end Shared

end FragmentEngine
