import FragmentEngine.Proofs.Engine.Footprint
import FragmentEngine.Proofs.Engine.Runs
import FragmentEngine.Proofs.Store.Files
/-!
# The catalog is saved

An engine in a directory keeps its catalog in a file there. Every query, whether it succeeds or not, leaves the file
with the catalog that the engine has, and changes nothing outside the directory.
-/

namespace FragmentEngine

open World (keptIn catalogName)

variable {root : Path} {d d' : Disk} {c c' : Catalog} {db name : String}

/-- An engine in a directory after an operation on its disk that succeeds. -/
theorem replacedBy_ok {x : Except Error Disk} (h : x = .ok d') :
    (keptIn d root c).replacedBy (do return { keptIn d root c with disk := ← x }) = (.ok (), keptIn d' root c) := by
  subst h
  rfl

/-! ## A saved catalog -/

/-- The file in `root` has the catalog; there is no file as long as the catalog is empty. -/
structure Catalog.SavedIn (root : Path) (d : Disk) (c : Catalog) : Prop where
  home : d.node root = .ok .directory
  coherent : c.Coherent
  saved : d.nodes[root ++ [catalogName]]? = some (.file (Text.Utf8.encode c.render)) ∨
    (d.nodes[root ++ [catalogName]]? = none ∧ c = .empty)

/-- Two disks that differ only below `root`, and not in the file of the catalog. -/
structure Disk.Aside (root : Path) (d d' : Disk) : Prop where
  below : SameBut root d d'
  file : d'.nodes[root ++ [catalogName]]? = d.nodes[root ++ [catalogName]]?

namespace Disk.Aside

theorem refl (root : Path) (d : Disk) : Aside root d d := ⟨.refl root d, rfl⟩

/-- The directory of a database is not where the catalog is: its name has no dot. -/
theorem of_outside (hdb : Name.check db = .ok ()) (h : SameOutside ((FileStore.mk root).place db) d d') :
    Aside root d d' where
  below := h.sameBut FileStore.root_below_place.1 FileStore.root_below_place.2
  file := by
    refine h _ fun hwithin => ?_
    have hname : root ++ [db] = root ++ [catalogName] :=
      hwithin.eq_of_length (by simp [FileStore.place])
    rw [List.append_cancel_left_eq, List.cons.injEq] at hname
    rw [hname.1] at hdb
    exact absurd hdb (by decide)

end Disk.Aside

namespace Catalog.SavedIn

theorem aside (h : c.SavedIn root d) (haside : Disk.Aside root d d') : c.SavedIn root d' where
  home := by rw [haside.below.home, h.home]
  coherent := h.coherent
  saved := by
    rw [haside.file]
    exact h.saved

/-- No directory stands where the catalog is to be. -/
theorem free (h : c.SavedIn root d) : d.nodes[root ++ [catalogName]]? ≠ some .directory := by
  rcases h.saved with hfile | ⟨hnone, -⟩
  · rw [hfile]
    exact nofun
  · rw [hnone]
    exact nofun

/-- The disk with the catalog in its file. -/
def written (root : Path) (d : Disk) (c : Catalog) : Disk :=
  ⟨d.nodes.insert (root ++ [catalogName]) (.file (Text.Utf8.encode c.render))⟩

theorem sameBut_written (root : Path) (d : Disk) (c : Catalog) : Disk.SameBut root d (written root d c) :=
  (Disk.SameOutside.of_insert List.prefix_rfl).sameBut (List.prefix_append root _) (by simp)

/-- Where a catalog was saved another one can be saved. -/
theorem flush (h : c.SavedIn root d) (haside : Disk.Aside root d d') (hcoherent : c'.Coherent) :
    Call.flush.perform (keptIn d' root c') = (.ok (), keptIn (written root d' c') root c') ∧
      c'.SavedIn root (written root d' c') ∧ Disk.SameBut root d (written root d' c') := by
  have hhome : d'.node root = .ok .directory := by rw [haside.below.home, h.home]
  have hwrite := Disk.write_entry hhome (by decide) (h.aside haside).free (Text.Utf8.encode c'.render)
  refine ⟨?_, ⟨?_, hcoherent, .inl (Disk.get_insert.trans (if_pos rfl))⟩,
    haside.below.trans (sameBut_written root d' c')⟩
  · exact replacedBy_ok (congrArg FileStore.lift hwrite)
  · rw [(sameBut_written root d' c').home, hhome]

end Catalog.SavedIn

/-! ## Queries that settle -/

namespace Query

variable {α β : Type}

/-- Whatever the outcome of the query, the catalog is saved after it, and nothing outside the directory is changed. -/
def Settles (root : Path) (q : Query α) : Prop := ∀ (d : Disk) (c : Catalog), c.SavedIn root d →
  ∃ x d' c', q.runIn (keptIn d root c) = (x, keptIn d' root c') ∧ c'.SavedIn root d' ∧ Disk.SameBut root d d'

theorem settles_of_unchanged {q : Query α} (h : ∀ w, (q.runIn w).2 = w) : q.Settles root :=
  fun d c hsaved => ⟨_, d, c, Prod.ext rfl (h _), hsaved, .refl root d⟩

theorem settles_pure (a : α) : Settles root (pure a : Query α) := settles_of_unchanged fun _ => rfl

theorem settles_throw (e : Error) : Settles root (throw e : Query α) := settles_of_unchanged fun _ => rfl

theorem settles_lift (x : Except Error α) : Settles root (liftM x : Query α) :=
  settles_of_unchanged fun w => by rw [runIn_lift]

theorem perform_read {call : Call} (hread : call.IsRead) (w : World) : (call.perform w).2 = w := by
  cases call <;> first | rfl | exact hread.elim

theorem settles_make {call : Call} (hread : call.IsRead) : call.make.Settles root :=
  settles_of_unchanged (perform_read hread)

theorem settles_bind {q : Query α} {f : α → Query β} (h : q.Settles root) (hf : ∀ a, (f a).Settles root) :
    (q >>= f).Settles root := by
  intro d c hsaved
  obtain ⟨x, d', c', hrun, hsaved', hbelow⟩ := h d c hsaved
  rw [runIn_bind, hrun]
  cases x with
  | error e => exact ⟨.error e, d', c', rfl, hsaved', hbelow⟩
  | ok a =>
    obtain ⟨y, d'', c'', hrun', hsaved'', hbelow'⟩ := hf a d' c' hsaved'
    exact ⟨y, d'', c'', hrun', hsaved'', hbelow.trans hbelow'⟩

theorem settles_mapM {f : α → Query β} (h : ∀ a, (f a).Settles root) (xs : List α) : (xs.mapM f).Settles root := by
  induction xs with
  | nil => exact settles_pure []
  | cons x rest ih =>
    rw [List.mapM_cons]
    exact settles_bind (h x) fun _ => settles_bind ih fun _ => settles_pure _

end Query

/-! ## Calls of the store

Each of them succeeds and changes the disk alone, beside the file of the catalog, or fails; a fragment that could not be
put may leave something behind, the others nothing. -/

theorem replacedBy_aside {x : Except Error Disk} (hx : ∀ d', x = .ok d' → Disk.Aside root d d') :
    (∃ e, (keptIn d root c).replacedBy (do return { keptIn d root c with disk := ← x }) =
      (.error e, keptIn d root c)) ∨
    ∃ d', (keptIn d root c).replacedBy (do return { keptIn d root c with disk := ← x }) = (.ok (), keptIn d' root c) ∧
      Disk.Aside root d d' := by
  cases x with
  | error e => exact .inl ⟨e, rfl⟩
  | ok d' => exact .inr ⟨d', rfl, hx d' rfl⟩

section

variable (root : Path) (d : Disk) (c : Catalog) (db name : String)

theorem perform_putDatabase :
    (∃ e, (Call.putDatabase db).perform (keptIn d root c) = (.error e, keptIn d root c)) ∨
    ∃ d', (Call.putDatabase db).perform (keptIn d root c) = (.ok (), keptIn d' root c) ∧ Disk.Aside root d d' := by
  refine replacedBy_aside fun d' hput => ?_
  obtain ⟨hdb, houtside⟩ := FileStore.outside_putDatabase hput
  exact .of_outside hdb houtside

theorem perform_deleteDatabase :
    (∃ e, (Call.deleteDatabase db).perform (keptIn d root c) = (.error e, keptIn d root c)) ∨
    ∃ d', (Call.deleteDatabase db).perform (keptIn d root c) = (.ok (), keptIn d' root c) ∧ Disk.Aside root d d' := by
  refine replacedBy_aside fun d' hdelete => ?_
  obtain ⟨hdb, houtside⟩ := FileStore.outside_deleteDatabase hdelete
  exact .of_outside hdb houtside

theorem perform_deleteFragment :
    (∃ e, (Call.deleteFragment db name).perform (keptIn d root c) = (.error e, keptIn d root c)) ∨
    ∃ d', (Call.deleteFragment db name).perform (keptIn d root c) = (.ok (), keptIn d' root c) ∧
      Disk.Aside root d d' := by
  refine replacedBy_aside fun d' hdelete => ?_
  obtain ⟨hdb, houtside⟩ := FileStore.outside_deleteFragment hdelete
  exact .of_outside hdb houtside

theorem perform_putFragment (f : Fragment) : ∃ x d', (Call.putFragment db f).perform (keptIn d root c) =
    (x, keptIn d' root c) ∧ Disk.Aside root d d' := by
  refine ⟨_, ((FileStore.mk root).putFragment d db f).2, rfl, ?_⟩
  rcases (FileStore.mk root).outside_putFragment d db f with hsame | ⟨hdb, houtside⟩
  · rw [hsame]
    exact .refl root d
  · exact .of_outside hdb houtside

end

namespace Request

open Query

variable {r : Request}

/-! ## Requests that change something -/

/-- After a change of the catalog and the disk, saving the catalog settles the query. -/
theorem flush_settles {α : Type} (f : Unit → α) (h : c.SavedIn root d) (haside : Disk.Aside root d d')
    (hcoherent : c'.Coherent) : ∃ x d'' c'', (Call.flush.make >>= fun a => pure (f a)).runIn (keptIn d' root c') =
      (x, keptIn d'' root c'') ∧ c''.SavedIn root d'' ∧ Disk.SameBut root d d'' := by
  obtain ⟨hperform, hsaved, hbelow⟩ := h.flush haside hcoherent
  exact ⟨.ok (f ()), _, c', runIn_bind_ok (q := Call.flush.make) hperform, hsaved, hbelow⟩

theorem createDatabase_settles : r.createDatabase.Settles root := by
  unfold createDatabase
  simp only [discard_bind]
  refine settles_bind (settles_lift _) fun name => ?_
  cases hname : Name.check name with
  | error e => exact settles_of_unchanged fun _ => rfl
  | ok =>
  intro d c hsaved
  cases hadd : c.addDatabase name with
  | error e =>
    refine ⟨.error e, d, c, runIn_bind_error (q := (Call.addDatabase name).make) ?_, hsaved, .refl root d⟩
    simp [runIn_make (.addDatabase name), Call.perform, World.withCatalog, keptIn, hadd]
  | ok p =>
    obtain ⟨entry, c'⟩ := p
    have hperform : (Call.addDatabase name).make.runIn (keptIn d root c) = (.ok entry, keptIn d root c') := by
      simp [runIn_make (.addDatabase name), Call.perform, World.withCatalog, keptIn, hadd]
    have hcoherent := hsaved.coherent.addDatabase (Name.plain_of_check hname) hadd
    show ∃ x d' c', ((Call.addDatabase name).make >>= _).runIn _ = _ ∧ _
    rw [runIn_bind_ok hperform]
    rcases perform_putDatabase root d c' name with ⟨e, hput⟩ | ⟨d', hput, haside⟩
    · have hattempt : (Call.putDatabase name).attempt.runIn (keptIn d root c') =
          (.ok (.error e), keptIn d root c') := by
        rw [runIn_attempt, hput]
      have hundo : (Call.removeDatabase name).make.runIn (keptIn d root c') = (.ok entry, keptIn d root c) := by
        simp [runIn_make (.removeDatabase name), Call.perform, World.withCatalog, keptIn,
          Catalog.removeDatabase_addDatabase hadd]
      refine ⟨.error e, d, c, ?_, hsaved, .refl root d⟩
      rw [runIn_bind_ok hattempt]
      exact runIn_bind_ok hundo
    · have hattempt : (Call.putDatabase name).attempt.runIn (keptIn d root c') = (.ok (.ok ()), keptIn d' root c') := by
        rw [runIn_attempt, hput]
      rw [runIn_bind_ok hattempt]
      exact flush_settles _ hsaved haside hcoherent

theorem dropDatabase_settles (statement : Option Statement) : (r.dropDatabase statement).Settles root := by
  unfold dropDatabase
  simp only [discard_bind]
  refine settles_bind (settles_lift _) fun name => ?_
  intro d c hsaved
  cases hfind : c.database name with
  | error e =>
    refine ⟨.error e, d, c, runIn_bind_error (q := (Call.findDatabase name).make) ?_, hsaved, .refl root d⟩
    simp [runIn_make (.findDatabase name), Call.perform, keptIn, hfind]
  | ok entry =>
    have hperform : (Call.findDatabase name).make.runIn (keptIn d root c) = (.ok entry, keptIn d root c) := by
      simp [runIn_make (.findDatabase name), Call.perform, keptIn, hfind]
    show ∃ x d' c', ((Call.findDatabase name).make >>= _).runIn _ = _ ∧ _
    rw [runIn_bind_ok hperform]
    by_cases hbusy : statement.any (·.db = name)
    · rw [if_pos hbusy]
      exact settles_throw _ d c hsaved
    · rw [if_neg hbusy]
      rcases perform_deleteDatabase root d c name with ⟨e, hdelete⟩ | ⟨d', hdelete, haside⟩
      · exact ⟨.error e, d, c, runIn_bind_error (q := (Call.deleteDatabase name).make) hdelete, hsaved, .refl root d⟩
      · obtain ⟨c', hremove⟩ := Catalog.removeDatabase_found hfind
        have hdelete' : (Call.deleteDatabase name).make.runIn (keptIn d root c) = (.ok (), keptIn d' root c) := hdelete
        have hremove' : (Call.removeDatabase name).make.runIn (keptIn d' root c) = (.ok entry, keptIn d' root c') := by
          simp [runIn_make (.removeDatabase name), Call.perform, World.withCatalog, keptIn, hremove]
        rw [runIn_bind_ok hdelete', runIn_bind_ok hremove']
        exact flush_settles _ hsaved haside (hsaved.coherent.removeDatabase hremove)

/-- A fragment that cannot be written is taken out of the catalog again, which is then as it was saved. -/
theorem store_settles (f : Fragment) (db : String) (device : Option String) : (store f db device).Settles root := by
  intro d c hsaved
  unfold store
  cases hadd : c.addFragment (.describe db device f) with
  | error e =>
    refine ⟨.error e, d, c, runIn_bind_error (q := (Call.addFragment (.describe db device f)).make) ?_, hsaved,
      .refl root d⟩
    simp [runIn_make (.addFragment _), Call.perform, World.withCatalog, keptIn, hadd, Except.map]
  | ok c' =>
    have hperform : (Call.addFragment (.describe db device f)).make.runIn (keptIn d root c) =
        (.ok (), keptIn d root c') := by
      simp [runIn_make (.addFragment _), Call.perform, World.withCatalog, keptIn, hadd, Except.map]
    rw [runIn_bind_ok hperform]
    obtain ⟨x, d', hput, haside⟩ := perform_putFragment root d c' db f
    have hattempt : (Call.putFragment db f).attempt.runIn (keptIn d root c') = (.ok x, keptIn d' root c') := by
      rw [runIn_attempt, hput]
    rw [runIn_bind_ok hattempt]
    cases x with
    | error e =>
      have hundo : (Call.removeFragment db f.name).attempt.runIn (keptIn d' root c') =
          (.ok (.ok (.describe db device f)), keptIn d' root c) := by
        have hremove : c'.removeFragment db f.name = .ok (.describe db device f, c) :=
          Catalog.removeFragment_addFragment hsaved.coherent.isListed hadd
        simp [runIn_attempt (.removeFragment db f.name), Call.perform, World.withCatalog, keptIn, hremove]
      refine ⟨.error e, d', c, ?_, hsaved.aside haside, haside.below⟩
      dsimp only
      rw [discard_bind, runIn_bind_ok hundo]
      rfl
    | ok =>
      obtain ⟨hflush, hsaved', hbelow⟩ := hsaved.flush haside (hsaved.coherent.addFragment hadd)
      exact ⟨.ok (), _, c', hflush, hsaved', hbelow⟩

theorem dropFragment_settles : r.dropFragment.Settles root := by
  unfold dropFragment
  simp only [discard_bind]
  refine settles_bind (settles_lift _) fun (db, name) => ?_
  intro d c hsaved
  cases hfind : c.fragment db name with
  | error e =>
    refine ⟨.error e, d, c, runIn_bind_error (q := (Call.findFragment db name).make) ?_, hsaved, .refl root d⟩
    simp [runIn_make (.findFragment db name), Call.perform, keptIn, hfind]
  | ok entry =>
    have hperform : (Call.findFragment db name).make.runIn (keptIn d root c) = (.ok entry, keptIn d root c) := by
      simp [runIn_make (.findFragment db name), Call.perform, keptIn, hfind]
    show ∃ x d' c', ((Call.findFragment db name).make >>= _).runIn _ = _ ∧ _
    rw [runIn_bind_ok hperform]
    rcases perform_deleteFragment root d c db name with ⟨e, hdelete⟩ | ⟨d', hdelete, haside⟩
    · exact ⟨.error e, d, c, runIn_bind_error (q := (Call.deleteFragment db name).make) hdelete, hsaved, .refl root d⟩
    · obtain ⟨c', hremove⟩ := Catalog.removeFragment_found hfind
      have hplain := hsaved.coherent.plain db (Catalog.fragment_eq_ok.1 hfind).1
      have hdelete' : (Call.deleteFragment db name).make.runIn (keptIn d root c) = (.ok (), keptIn d' root c) := hdelete
      have hremove' : (Call.removeFragment db name).make.runIn (keptIn d' root c) = (.ok entry, keptIn d' root c') := by
        simp [runIn_make (.removeFragment db name), Call.perform, World.withCatalog, keptIn, hremove]
      rw [runIn_bind_ok hdelete', runIn_bind_ok hremove']
      exact flush_settles _ hsaved haside (hsaved.coherent.removeFragment hplain hremove)

/-! ## Other requests -/

theorem checkNew_settles (db name : String) : (checkNew db name).Settles root :=
  settles_of_unchanged fun w => by rw [checkNew_runIn]

theorem createFragment_settles (statement : Option Statement) : (r.createFragment statement).Settles root := by
  unfold createFragment
  cases statement with
  | some s => exact settles_throw (.exec (.statementOpen s.db s.fragment.name))
  | none =>
    refine settles_bind (settles_lift _) fun (db, name) => settles_bind (checkNew_settles db name) fun _ => ?_
    refine settles_bind (settles_lift _) fun schema => settles_bind (settles_lift _) fun count? => ?_
    dsimp only
    split
    · exact settles_bind (store_settles _ _ _) fun _ => settles_pure _
    · exact settles_pure _

theorem insert_settles (several : Bool) (statement : Option Statement) : (r.insert several statement).Settles root := by
  unfold insert
  cases statement with
  | none => exact settles_throw (.exec .noStatement)
  | some s =>
    refine settles_bind (settles_lift _) fun records => settles_bind (settles_lift _) fun last => ?_
    split
    · exact settles_bind (store_settles _ _ _) fun _ => settles_pure _
    · exact settles_pure _

theorem loadSources_settles : r.loadSources.Settles root := by
  unfold loadSources
  refine settles_bind (settles_lift _) fun names => settles_bind (settles_lift _) fun aliases => ?_
  split
  · exact settles_throw _
  · refine settles_mapM (fun (name, i) => ?_) _
    unfold loadSource
    simp only [discard_bind]
    refine settles_bind (settles_lift _) fun (db, name) => settles_bind (settles_make trivial) fun _ => ?_
    exact settles_bind (settles_make trivial) fun _ => settles_pure _

theorem select_settles : r.select.Settles root := by
  unfold select
  refine settles_bind loadSources_settles fun sources => settles_bind (settles_lift _) fun request => ?_
  exact settles_bind (settles_lift _) fun f => settles_lift _

theorem createFromSelect_settles : r.createFromSelect.Settles root := by
  unfold createFromSelect
  refine settles_bind (settles_lift _) fun (db, name) => settles_bind (checkNew_settles db name) fun _ => ?_
  refine settles_bind loadSources_settles fun sources => settles_bind (settles_lift _) fun request => ?_
  refine settles_bind (settles_lift _) fun f => settles_bind (store_settles _ _ _) fun _ => settles_pure _

theorem createFromFile_settles : r.createFromFile.Settles root := by
  unfold createFromFile
  refine settles_bind (settles_lift _) fun (db, name) => settles_bind (checkNew_settles db name) fun _ => ?_
  refine settles_bind (settles_lift _) fun produce => settles_bind (settles_lift _) fun request => ?_
  refine settles_bind (settles_make trivial) fun text => settles_bind (settles_lift _) fun f => ?_
  exact settles_bind (store_settles _ _ _) fun _ => settles_pure _

theorem perform_settles (r : Request) (statement : Option Statement) (op : Operation) :
    (r.perform statement op).Settles root := by
  cases op with
  | createDatabase => exact settles_bind createDatabase_settles fun _ => settles_pure _
  | dropDatabase => exact settles_bind (dropDatabase_settles statement) fun _ => settles_pure _
  | createFragment => exact createFragment_settles statement
  | insert => exact insert_settles false statement
  | multiInsert => exact insert_settles true statement
  | createFromSelect => exact settles_bind createFromSelect_settles fun _ => settles_pure _
  | createFromFile => exact settles_bind createFromFile_settles fun _ => settles_pure _
  | select => exact settles_bind select_settles fun _ => settles_pure _
  | dropFragment => exact settles_bind dropFragment_settles fun _ => settles_pure _

end Request

/-! ## Queries of sessions -/

/-- A query text settles: also one that is refused. -/
theorem Session.execute_settled (s : Session) (query : String) (args : List Argument) (h : c.SavedIn root d) :
    ∃ d' c', ((s.execute query args).run (keptIn d root c)).2 = keptIn d' root c' ∧ c'.SavedIn root d' ∧
      Disk.SameBut root d d' := by
  rcases s.execute_asks query args with ⟨params, op, -, -, heq⟩ | ⟨e, heq⟩
  · rw [heq, Session.run_perform]
    obtain ⟨x, d', c', hrun, hsaved, hbelow⟩ := Request.perform_settles ⟨s.engine, params, args⟩ s.statement op d c h
    rw [hrun]
    cases x <;> exact ⟨d', c', rfl, hsaved, hbelow⟩
  · rw [heq]
    exact ⟨d, c, rfl, h, .refl root d⟩

end FragmentEngine
