import FragmentEngine.Proofs.Engine.Agreement
import FragmentEngine.Proofs.Engine.Footprint
import FragmentEngine.Proofs.Engine.Held
/-!
# What queries store

A property of fragments at their places is kept by a request if everything that the request may make of fragments with
the property has it: an empty fragment, added records, a selection, an import. Then all stored fragments and those of
all open statements have it, whatever queries any sessions carry out one at a time.
-/

namespace FragmentEngine

variable {A : String × String → Fragment → Prop}

/-! ## Programs -/

namespace Program

variable {α β : Type} {post : α → Prop} {post' : β → Prop} {w : World}

/-- As long as it is answered fragments with the property, the program puts no others and ends with what it should. -/
def Upholds (A : String × String → Fragment → Prop) (post : α → Prop) : Program α → Prop
  | .done a => post a
  | .call c next => c.Puts A ∧ ∀ reply, c.Gives A reply → (next reply).Upholds A post

/-- The calls that a run makes. -/
def calls (w : World) : Program α → List Call
  | .done _ => []
  | .call c next => c :: (next (c.perform w).1).calls (c.perform w).2

namespace Upholds

theorem bind {p : Program α} {f : α → Program β} (h : p.Upholds A post) (hf : ∀ a, post a → (f a).Upholds A post') :
    (p >>= f).Upholds A post' := by
  induction p with
  | done a => exact hf a h
  | call c next ih => exact ⟨h.1, fun reply hreply => ih reply (h.2 reply hreply)⟩

theorem of_uses {p : Program α} (h : p.Uses (Call.Puts A)) (hpost : ∀ a, post a) : p.Upholds A post := by
  induction p with
  | done a => exact hpost a
  | call c next ih => exact ⟨h.1, fun reply _ => ih reply (h.2 reply)⟩

/-- A run of such a program keeps the property of what is stored. -/
theorem run {p : Program α} (h : p.Upholds A post) (hw : w.Holds A) (hkeep : ∀ c ∈ p.calls w, w.CanKeep c) :
    (p.run w).2.Holds A ∧ post (p.run w).1 ∧ ∀ c, w.CanKeep c → (p.run w).2.CanKeep c := by
  induction p generalizing w with
  | done a => exact ⟨hw, h, fun _ => id⟩
  | call c next ih =>
    obtain ⟨hfirst, hlater⟩ := List.forall_mem_cons.1 hkeep
    obtain ⟨hw', hgives, hkind⟩ := hw.perform h.1 hfirst
    obtain ⟨hend, hpost, hkind'⟩ := ih _ (h.2 _ hgives) hw' fun c' hc' => hkind c' (hlater c' hc')
    exact ⟨hend, hpost, fun c' hc' => hkind' c' (hkind c' hc')⟩

end Upholds

end Program

/-! ## Queries -/

namespace Query

variable {α β : Type} {post : α → Prop} {post' : β → Prop}

/-- Also a query that fails puts nothing without the property. -/
def Upholds (A : String × String → Fragment → Prop) (post : α → Prop) (q : Query α) : Prop :=
  Program.Upholds A (fun x => ∀ a, x = .ok a → post a) q.run

theorem upholds_pure {a : α} (h : post a) : Upholds A post (pure a : Query α) := by
  rintro _ ⟨⟩
  exact h

theorem upholds_throw (e : Error) : Upholds A post (throw e : Query α) := nofun

theorem upholds_bind {q : Query α} {f : α → Query β} (h : Upholds A post q) (hf : ∀ a, post a → Upholds A post' (f a)) :
    Upholds A post' (q >>= f) := by
  refine Program.Upholds.bind h fun x hx => ?_
  cases x with
  | ok a => exact hf a (hx a rfl)
  | error e => exact nofun

theorem upholds_lift {x : Except Error α} {f : α → Query β} (hf : ∀ a, x = .ok a → Upholds A post' (f a)) :
    Upholds A post' (liftM x >>= f) := by
  cases x with
  | ok a => exact hf a rfl
  | error e => exact nofun

theorem upholds_of_uses {q : Query α} (h : Uses (Call.Puts A) q) : Upholds A (fun _ => True) q :=
  Program.Upholds.of_uses h fun _ _ _ => trivial

theorem upholds_make {c : Call} (h : c.Puts A) : Upholds A (fun a => c.Gives A (.ok a)) c.make := by
  refine ⟨h, fun reply hreply a ha => ?_⟩
  subst ha
  exact hreply

theorem upholds_mapM {f : α → Query β} (h : ∀ a, Upholds A post' (f a)) (xs : List α) :
    Upholds A (fun bs => ∀ b ∈ bs, post' b) (xs.mapM f) := by
  induction xs with
  | nil => exact upholds_pure nofun
  | cons x rest ih =>
    rw [List.mapM_cons]
    exact upholds_bind (h x) fun b hb => upholds_bind ih fun bs hbs => upholds_pure (List.forall_mem_cons.2 ⟨hb, hbs⟩)

end Query

/-! ## Requests -/

namespace Request

open Query

variable {r : Request} {statement : Option Statement} {op : Operation} {db name : String}

/-- Everything that the request may make of fragments with the property has it at its place. -/
structure Keeps (A : String × String → Fragment → Prop) (r : Request) (op : Operation) : Prop where
  created : op = .createFragment → ∀ {place : String × String} {schema : Schema}, r.target = .ok place →
    r.newSchema = .ok schema → A place (.empty place.2 schema)
  inserted : ∀ {place : String × String} {f : Fragment} {several : Bool} {records : List Record}, A place f →
    r.insertedRecords several f.schema = .ok records → A place { f with records := f.records ++ records }
  selected : ∀ {place : String × String} {request : SelectRequest} {sources : List Source} {f : Fragment},
    (∀ s ∈ sources, ∃ home, A home s.fragment) → request.execute (r.engine.context r.args) sources = .ok f → A place f
  imported : op = .createFromFile → ∀ {place : String × String} {producer text : String} {produce : Producer}
    {request : Import} {f : Fragment}, r.target = .ok place → r.engine.producer producer = .ok produce →
    r.importRequest = .ok request → produce request text = .ok f → A place { f with name := place.2 }

/-- A new schema has the columns that are named, none of them flagged. -/
theorem newSchema_eq_ok {schema : Schema} (h : r.newSchema = .ok schema) :
    r.params.requireList "field" = .ok schema.names ∧ ∀ field ∈ schema.fields, field.identifier = false := by
  obtain ⟨names, hnames, h⟩ := Outcome.bind_eq_ok.1 h
  obtain ⟨types, -, h⟩ := Outcome.bind_eq_ok.1 h
  split at h
  · cases h
  · rename_i hlength
    obtain ⟨fields, hfields, h⟩ := Outcome.bind_eq_ok.1 h
    cases h
    have hmade : List.Forall₂ (fun (p : String × String) (field : Field) => p.1 = field.name ∧ field.identifier = false)
        (names.zip types) fields := by
      refine (Outcome.mapM_eq_ok.1 hfields).imp fun p field hfield => ?_
      obtain ⟨type, -, hfield⟩ := Outcome.bind_eq_ok.1 hfield
      cases hfield
      exact ⟨rfl, rfl⟩
    have hsame : names = fields.map Field.name := by
      rw [← List.map_fst_zip (Nat.le_of_eq (not_not.1 hlength)), ← List.forall₂_eq_eq_eq, List.forall₂_map_left_iff,
        List.forall₂_map_right_iff]
      exact hmade.imp fun _ _ => And.left
    refine ⟨by rw [hnames, hsame]; rfl, fun field hfield => ?_⟩
    obtain ⟨_, -, -, hflag⟩ := Outcome.exists_of_mem hmade hfield
    exact hflag

/-- The one producer that is there reads texts. -/
theorem producer_builtin {headroom : Nat} {producer : String} {produce : Producer}
    (h : (Engine.builtin headroom).producer producer = .ok produce) : produce = Import.ofText := by
  unfold Engine.producer at h
  split at h
  · rename_i p hlookup
    cases h
    simp only [Engine.builtin, List.lookup_cons, List.lookup_nil] at hlookup
    split at hlookup <;> cases hlookup
    rfl
  · cases h

theorem measure_of_importRequest {request : Import} (h : r.importRequest = .ok request) :
    r.params.require "measure" = .ok request.measure := by
  obtain ⟨source, -, h⟩ := Outcome.bind_eq_ok.1 h
  obtain ⟨measure, hmeasure, h⟩ := Outcome.bind_eq_ok.1 h
  obtain ⟨rowCount, -, h⟩ := Outcome.bind_eq_ok.1 h
  obtain ⟨firstId, -, h⟩ := Outcome.bind_eq_ok.1 h
  obtain ⟨dimensions, -, h⟩ := Outcome.bind_eq_ok.1 h
  cases h
  exact hmeasure

/-- A fragment with the property is stored at its place. -/
theorem store_upholds {f : Fragment} {device : Option String} (h : A (db, f.name) f) :
    Upholds A (fun _ => True) (store f db device) := by
  refine upholds_of_uses ?_
  unfold store
  simp only [discard_bind]
  refine uses_bind (uses_make trivial) fun _ => uses_bind (uses_attempt h) fun outcome => ?_
  cases outcome with
  | error e => exact uses_bind (uses_attempt trivial) fun _ => uses_throw e
  | ok => exact uses_make trivial

/-- A request that is to store nothing puts nothing. -/
theorem puts_of_mayCall (hop : ∀ place, ¬r.Aims statement place op) (c : Call) (h : r.MayCall statement op c) :
    c.Puts A := by
  cases c with
  | putFragment db f => exact (hop _ h).elim
  | _ => trivial

theorem upholds_of_mayCall {α : Type} {q : Query α} (r : Request) (statement : Option Statement) (op : Operation)
    (hop : ∀ place, ¬r.Aims statement place op) (h : Uses (r.MayCall statement op) q) :
    Upholds A (fun _ => True) q :=
  upholds_of_uses (Program.Uses.mono h (puts_of_mayCall hop))

theorem checkNew_upholds (r : Request) (db name : String) : Upholds A (fun _ => True) (checkNew db name) :=
  upholds_of_mayCall r none .select (fun _ => id) (checkNew_uses db name)

theorem createFragment_upholds (h : r.Keeps A .createFragment) :
    Upholds A (fun (_, s?) => ∀ s ∈ s?, A s.place s.fragment) (r.createFragment statement) := by
  unfold createFragment
  cases statement with
  | some s => exact upholds_throw (.exec (.statementOpen s.db s.fragment.name))
  | none =>
    refine upholds_lift fun (db, name) htarget => upholds_bind (r.checkNew_upholds db name) fun _ _ => ?_
    refine upholds_lift fun schema hschema => upholds_lift fun count? _ => ?_
    have hcreated := h.created rfl htarget hschema
    dsimp only
    split
    · exact upholds_bind (store_upholds hcreated) fun _ _ => upholds_pure nofun
    · refine upholds_pure fun s hs => ?_
      cases hs
      exact hcreated

theorem insert_upholds {several : Bool} (h : r.Keeps A op) (hs : ∀ s ∈ statement, A s.place s.fragment) :
    Upholds A (fun (_, s?) => ∀ s ∈ s?, A s.place s.fragment) (r.insert several statement) := by
  unfold insert
  cases statement with
  | none => exact upholds_throw (.exec .noStatement)
  | some s =>
    refine upholds_lift fun records hrecords => upholds_lift fun last hlast => ?_
    have hfragment := Statement.fragment_of_append (Prod.ext hlast rfl)
    have hplace := s.append_place records (r.params.flag "final_statement")
    have hinserted := h.inserted (hs s rfl) hrecords
    rw [← hfragment, ← hplace] at hinserted
    split
    · exact upholds_bind (store_upholds hinserted) fun _ _ => upholds_pure nofun
    · refine upholds_pure fun t ht => ?_
      cases ht
      exact hinserted

/-- What is loaded has the property at the place it is loaded from. -/
theorem loadSources_upholds : Upholds A (fun sources => ∀ s ∈ sources, ∃ home, A home s.fragment) r.loadSources := by
  unfold loadSources
  refine upholds_lift fun names _ => upholds_lift fun aliases _ => ?_
  split
  · exact upholds_throw _
  · refine upholds_mapM (fun (name, i) => ?_) _
    unfold loadSource
    simp only [discard_bind]
    refine upholds_lift fun (db, name) _ => upholds_bind (upholds_make trivial) fun _ _ => ?_
    exact upholds_bind (upholds_make trivial) fun f hf => upholds_pure ⟨(db, name), hf⟩

theorem select_upholds : Upholds A (fun _ => True) r.select :=
  upholds_of_mayCall r none .select (fun _ => id) select_uses

theorem createFromSelect_upholds (h : r.Keeps A .createFromSelect) :
    Upholds A (fun _ => True) r.createFromSelect := by
  unfold createFromSelect
  refine upholds_lift fun (db, name) _ => upholds_bind (r.checkNew_upholds db name) fun _ _ => ?_
  refine upholds_bind loadSources_upholds fun sources hsources => upholds_lift fun request _ => ?_
  refine upholds_lift fun f hf => upholds_bind (store_upholds (h.selected hsources hf)) fun _ _ => ?_
  exact upholds_pure trivial

theorem createFromFile_upholds (h : r.Keeps A .createFromFile) : Upholds A (fun _ => True) r.createFromFile := by
  unfold createFromFile
  refine upholds_lift fun (db, name) htarget => upholds_bind (r.checkNew_upholds db name) fun _ _ => ?_
  refine upholds_lift fun produce hproduce => upholds_lift fun request hrequest => ?_
  refine upholds_bind (upholds_make trivial) fun text _ => upholds_lift fun f hf => ?_
  have himported := h.imported rfl htarget hproduce hrequest hf
  exact upholds_bind (store_upholds himported) fun _ _ => upholds_pure trivial

/-- The request puts no fragment without the property, and leaves none in the statement. -/
theorem perform_upholds (h : r.Keeps A op) (hs : ∀ s ∈ statement, A s.place s.fragment) :
    Upholds A (fun (_, s?) => ∀ s ∈ s?, A s.place s.fragment) (r.perform statement op) := by
  cases op with
  | createDatabase =>
    exact upholds_bind (upholds_of_mayCall r statement .createDatabase (fun _ => id) createDatabase_uses) fun _ _ =>
      upholds_pure hs
  | dropDatabase =>
    exact upholds_bind (upholds_of_mayCall r statement .dropDatabase (fun _ => id) dropDatabase_uses) fun _ _ =>
      upholds_pure hs
  | createFragment => exact createFragment_upholds h
  | insert => exact insert_upholds h hs
  | multiInsert => exact insert_upholds h hs
  | createFromSelect => exact upholds_bind (createFromSelect_upholds h) fun _ _ => upholds_pure hs
  | createFromFile => exact upholds_bind (createFromFile_upholds h) fun _ _ => upholds_pure hs
  | select => exact upholds_bind select_upholds fun _ _ => upholds_pure hs
  | dropFragment =>
    exact upholds_bind (upholds_of_mayCall r statement .dropFragment (fun _ => id) dropFragment_uses) fun _ _ =>
      upholds_pure hs

end Request

/-! ## Queries of sessions -/

/-- The session has the given engine, and the fragment of its statement has the property. -/
structure Session.Sound (A : String × String → Fragment → Prop) (e : Engine) (s : Session) : Prop where
  engine : s.engine = e
  statement : ∀ t ∈ s.statement, A t.place t.fragment

/-- A query puts no fragment without the property, and leaves none in the session, whether it succeeds or not. -/
theorem Session.execute_upholds {e : Engine} {s : Session} (hs : s.Sound A e) {query : String} {args : List Argument}
    (h : ∀ params op, Params.parse query = .ok params → params.operation = .ok op →
      Request.Keeps A ⟨e, params, args⟩ op) :
    (s.execute query args).Upholds A fun (_, s') => s'.Sound A e := by
  obtain ⟨rfl, hstatement⟩ := hs
  rcases s.execute_asks query args with ⟨params, op, hparams, hop, heq⟩ | ⟨e, heq⟩
  · rw [heq]
    refine (Request.perform_upholds (h params op hparams hop) hstatement).bind fun x hx => ?_
    cases x with
    | ok p => exact ⟨rfl, hx p rfl⟩
    | error e =>
      refine ⟨rfl, ?_⟩
      cases op with
      | insert | multiInsert => exact nofun
      | _ => exact hstatement
  · rw [heq]
    exact ⟨rfl, hstatement⟩

namespace Shared

/-- The calls that queries make one after another. -/
def calls (S : Shared) : List (Nat × String × List Argument) → List Call
  | [] => []
  | (i, query, args) :: rest =>
    ((S.sessions i).execute query args).calls S.world ++ (S.execute i query args).calls rest

/-- All stored fragments and those of all open statements have the property. -/
structure Sound (A : String × String → Fragment → Prop) (e : Engine) (S : Shared) : Prop where
  world : S.world.Holds A
  sessions : ∀ i, (S.sessions i).Sound A e

variable {e : Engine} {w : World} {S : Shared}

theorem sound_on (h : w.StartsEmpty) : (on e w).Sound A e := ⟨.of_startsEmpty h, fun _ => ⟨rfl, nofun⟩⟩

theorem Sound.execute (h : S.Sound A e) {i : Nat} {query : String} {args : List Argument}
    (hkeeps : ∀ params op, Params.parse query = .ok params → params.operation = .ok op →
      Request.Keeps A ⟨e, params, args⟩ op)
    (hkeep : ∀ c ∈ ((S.sessions i).execute query args).calls S.world, S.world.CanKeep c) :
    (S.execute i query args).Sound A e ∧ ∀ c, S.world.CanKeep c → (S.execute i query args).world.CanKeep c := by
  obtain ⟨hworld, hsession, hkind⟩ := (Session.execute_upholds (h.sessions i) hkeeps).run h.world hkeep
  refine ⟨⟨hworld, fun j => ?_⟩, hkind⟩
  rw [sessions_execute]
  split
  · exact hsession
  · exact h.sessions j

/-- Queries that keep the property one by one keep it all together. -/
theorem Sound.run (h : S.Sound A e) {queries : List (Nat × String × List Argument)}
    (hkeeps : ∀ q ∈ queries, ∀ params op, Params.parse q.2.1 = .ok params → params.operation = .ok op →
      Request.Keeps A ⟨e, params, q.2.2⟩ op)
    (hkeep : ∀ c ∈ S.calls queries, S.world.CanKeep c) : (S.run queries).Sound A e := by
  induction queries generalizing S with
  | nil => exact h
  | cons q rest ih =>
    obtain ⟨hfirst, hlater⟩ := List.forall_mem_append.1 hkeep
    obtain ⟨hq, hrest⟩ := List.forall_mem_cons.1 hkeeps
    obtain ⟨hnext, hkind⟩ := h.execute hq hfirst
    exact ih hnext hrest fun c hc => hkind c (hlater c hc)

end Shared

end FragmentEngine
