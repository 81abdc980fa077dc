import FragmentEngine.Proofs.Engine.Agreement
import FragmentEngine.Proofs.Engine.Saving
import FragmentEngine.Proofs.Store.Directories
/-!
# Every database has its directory

An engine in a directory changes its catalog and its disk by separate calls, and any of them may fail. After every
query, whether it succeeds or not, each database of the catalog has a directory, and nothing stands in the way of its
files.
-/

namespace FragmentEngine

open World (keptIn)

/-! ## Databases and their directories -/

namespace Phase

/-- The database that a query is about to change. -/
def chosen : Phase → Option String
  | .foundDatabase db | .creating db | .uncreating db | .dropping db => some db
  | _ => none

/-- The database that may be without a directory. -/
def unhoused : Phase → Option String
  | .creating db | .uncreating db | .dropping db => some db
  | _ => none

theorem Ends.unhoused {α : Type} {φ : Phase} {x : Except Error α} (h : Ends φ x) : φ.unhoused = none := by
  cases h <;> rfl

/-- Every database of the catalog has a safe name, and a directory unless it is the one that is made or dropped. -/
structure Housed (root : Path) (φ : Phase) (d : Disk) (c : Catalog) : Prop where
  home : d.node root = .ok .directory
  homes : ∀ db ∈ c.databases, φ.unhoused ≠ some db → d.node ((FileStore.mk root).place db) = .ok .directory
  chosen : ∀ db, φ.chosen = some db → db ∈ c.databases
  safe : ∀ db ∈ c.databases, Name.check db = .ok ()
  flat : (FileStore.mk root).Flat d

namespace Housed

variable {root : Path} {φ ψ : Phase} {d d' : Disk} {c c' : Catalog} {db : String}

theorem phase (h : φ.Housed root d c) (hunhoused : ∀ db, φ.unhoused = some db → ψ.unhoused = some db)
    (hchosen : ∀ db, ψ.chosen = some db → db ∈ c.databases) : ψ.Housed root d c :=
  ⟨h.home, fun db hdb hne => h.homes db hdb fun hφ => hne (hunhoused db hφ), hchosen, h.safe, h.flat⟩

theorem disk (h : φ.Housed root d c) (hsame : Disk.SameDirectories d d') : φ.Housed root d' c :=
  ⟨hsame.node h.home, fun db hdb hne => hsame.node (h.homes db hdb hne), h.chosen, h.safe, h.flat.sameDirectories hsame⟩

theorem catalog (h : φ.Housed root d c) (hmem : ∀ x, x ∈ c'.databases ↔ x ∈ c.databases) : φ.Housed root d c' :=
  ⟨h.home, fun db hdb hne => h.homes db ((hmem db).1 hdb) hne, fun db hdb => (hmem db).2 (h.chosen db hdb),
    fun db hdb => h.safe db ((hmem db).1 hdb), h.flat⟩

theorem addDatabase {entry : DatabaseEntry} (h : Housed root .start d c) (hsafe : Name.check db = .ok ())
    (hadd : c.addDatabase db = .ok (entry, c')) : Housed root (.creating db) d c' where
  home := h.home
  homes x hx hne := by
    rcases (Catalog.mem_addDatabase hadd x).1 hx with rfl | hx
    · exact absurd rfl hne
    · exact h.homes x hx nofun
  chosen x hx := by
    cases hx
    exact (Catalog.mem_addDatabase hadd db).2 (.inl rfl)
  safe x hx := by
    rcases (Catalog.mem_addDatabase hadd x).1 hx with rfl | hx
    · exact hsafe
    · exact h.safe x hx
  flat := h.flat

theorem putDatabase (h : Housed root (.creating db) d c) (hput : (FileStore.mk root).putDatabase d db = .ok d') :
    Housed root .finished d' c := by
  have hflat := h.flat.putDatabase hput
  obtain ⟨⟨⟩, -, hput⟩ := Outcome.bind_eq_ok.1 hput
  obtain ⟨hnew, hold⟩ := Disk.node_addDirectory h.home (FileStore.lift_eq_ok.1 hput)
  refine ⟨hold _ h.home, fun x hx _ => ?_, nofun, h.safe, hflat⟩
  by_cases hdb : db = x
  · rw [← hdb]
    exact hnew
  · exact hold _ (h.homes x hx fun hsame => hdb (Option.some.inj hsame))

theorem removeDatabase {entry : DatabaseEntry} (h : φ.Housed root d c) (hφ : φ.unhoused = some db)
    (hremove : c.removeDatabase db = .ok (entry, c')) (hψ : ψ.chosen = none) : ψ.Housed root d c' where
  home := h.home
  homes x hx _ := by
    obtain ⟨hne, hx⟩ := (Catalog.mem_removeDatabase hremove x).1 hx
    refine h.homes x hx fun hsame => hne ?_
    rw [hφ] at hsame
    exact Option.some.inj hsame
  chosen x hx := by
    rw [hψ] at hx
    cases hx
  safe x hx := h.safe x ((Catalog.mem_removeDatabase hremove x).1 hx).2
  flat := h.flat

theorem deleteDatabase (h : Housed root (.foundDatabase db) d c)
    (hdelete : (FileStore.mk root).deleteDatabase d db = .ok d') : Housed root (.dropping db) d' c where
  home := by
    have houtside := (FileStore.outside_deleteDatabase hdelete).2
    rw [(houtside.sameBut FileStore.root_below_place.1 FileStore.root_below_place.2).home, h.home]
  homes x hx hne := by
    have houtside := (FileStore.outside_deleteDatabase hdelete).2
    rw [houtside.node, h.homes x hx nofun]
    intro hwithin
    have hsame := List.isPrefixOf_iff_prefix.2 hwithin
    rw [FileStore.place_isPrefixOf_place, decide_eq_true_iff] at hsame
    exact hne (congrArg some hsame)
  chosen x hx := h.chosen x hx
  safe := h.safe
  flat := h.flat.deleteDatabase hdelete

end Housed

/-- The outcome and the world of a call that leads to the one phase or, if it fails, to the other. -/
inductive After {α : Type} (root : Path) (ψ χ : Phase) : Except Error α × World → Prop
  | ok {a : α} {d : Disk} {c : Catalog} (h : ψ.Housed root d c) : After root ψ χ (.ok a, keptIn d root c)
  | error {e : Error} {d : Disk} {c : Catalog} (h : χ.Housed root d c) : After root ψ χ (.error e, keptIn d root c)

section

variable {root : Path} {φ ψ χ : Phase} {d : Disk} {c : Catalog}

/-- An operation on the catalog leads to the one phase with its new catalog, or to the other with the old one. -/
theorem After.withCatalog {α : Type} (x : Except Error (α × Catalog))
    (hok : ∀ a c', x = .ok (a, c') → ψ.Housed root d c') (herror : ∀ e, x = .error e → χ.Housed root d c) :
    After root ψ χ ((keptIn d root c).withCatalog x) := by
  rcases x with e | ⟨a, c'⟩
  · exact .error (herror e rfl)
  · exact .ok (hok a c' rfl)

/-- An operation on the disk leads to the one phase with its new disk, or to the other with the old one. -/
theorem After.replacedBy (x : Except Error Disk) (hok : ∀ d', x = .ok d' → ψ.Housed root d' c)
    (herror : χ.Housed root d c) :
    After root ψ χ ((keptIn d root c).replacedBy (do return { keptIn d root c with disk := ← x })) := by
  rcases x with e | d'
  · exact .error herror
  · exact .ok (hok d' rfl)

/-- A call that only looks leads to the one phase or the other with all as it was. -/
theorem After.read {call : Call} (hread : call.IsRead)
    (hok : ∀ a, (call.perform (keptIn d root c)).1 = .ok a → ψ.Housed root d c) (herror : χ.Housed root d c) :
    After root ψ χ (call.perform (keptIn d root c)) := by
  have hsame := Query.perform_read hread (keptIn d root c)
  cases hreply : (call.perform (keptIn d root c)).1 with
  | ok a =>
    rw [show call.perform (keptIn d root c) = (.ok a, keptIn d root c) from Prod.ext hreply hsame]
    exact .ok (hok a hreply)
  | error e =>
    rw [show call.perform (keptIn d root c) = (.error e, keptIn d root c) from Prod.ext hreply hsame]
    exact .error herror

/-- A database that was chosen is in the catalog, so that removing it does not fail. -/
theorem Housed.removeDatabase_ne_error {db : String} (h : φ.Housed root d c) (hchosen : φ.chosen = some db)
    (e : Error) : c.removeDatabase db ≠ .error e := by
  obtain ⟨entry, hentry⟩ := Maps.get_of_mem (h.chosen db hchosen)
  obtain ⟨c', hok⟩ := Catalog.removeDatabase_found (Catalog.database_eq_ok.2 hentry)
  rw [hok]
  exact nofun

end

/-- A call that is allowed in a phase ends in a world that fits the next phase. -/
theorem Step.housed {root : Path} {φ ψ χ : Phase} {call : Call} {d : Disk} {c : Catalog} (hs : φ.Step call ψ χ)
    (h : φ.Housed root d c) : After root ψ χ (call.perform (keptIn d root c)) := by
  cases hs with
  | read call hread => exact .read hread (fun _ _ => h) h
  | addDatabase db hsafe => exact .withCatalog _ (fun entry c' hadd => h.addDatabase hsafe hadd) fun _ _ => h
  | putDatabase db => exact .replacedBy _ (fun d' hput => h.putDatabase hput) (h.phase (fun _ => id) h.chosen)
  | undoDatabase db | removeDatabase db =>
    exact .withCatalog _ (fun entry c' hremove => h.removeDatabase rfl hremove rfl) fun e hfails =>
      absurd hfails (h.removeDatabase_ne_error rfl e)
  | chooseDatabase db =>
    refine .read trivial (fun entry hfind => h.phase (fun _ => id) fun x hx => ?_) h
    cases hx
    exact Maps.mem_of_get (Catalog.database_eq_ok.1 hfind)
  | deleteDatabase db => exact .replacedBy _ (fun d' hdelete => h.deleteDatabase hdelete) (h.phase nofun nofun)
  | addFragment db device f =>
    refine .withCatalog _ (fun a c' hadd => ?_) fun _ _ => h
    obtain ⟨c'', hadd, heq⟩ := Outcome.map_eq_ok.1 hadd
    cases heq
    exact (h.catalog (Catalog.mem_addFragment hadd)).phase nofun nofun
  | putFragment db device f =>
    have hput := h.disk ((FileStore.mk root).sameDirectories_putFragment d db f)
    show After root _ _ (((FileStore.mk root).putFragment d db f).1, keptIn _ root c)
    cases ((FileStore.mk root).putFragment d db f).1 with
    | ok a => exact .ok (hput.phase nofun nofun)
    | error e => exact .error (hput.phase nofun nofun)
  | releaseFragment db device f | removeFragment db name =>
    refine .withCatalog _ (fun entry c' hremove => ?_) fun _ _ => h.phase nofun nofun
    exact (h.catalog (Catalog.removeFragment_effect hremove).2.2).phase nofun nofun
  | chooseFragment db name => exact .read trivial (fun _ _ => h.phase nofun nofun) h
  | deleteFragment db name =>
    refine .replacedBy _ (fun d' hdelete => ?_) (h.phase nofun nofun)
    exact (h.disk (FileStore.sameDirectories_deleteFragment hdelete)).phase nofun nofun
  | flush =>
    refine .replacedBy _ (fun d' hwrite => ?_) (h.phase nofun nofun)
    exact h.disk (.write (FileStore.lift_eq_ok.1 hwrite))

end Phase

/-! ## Queries -/

/-- Every database of the catalog has a safe name and a directory, and no directory stands where a fragment is to be. -/
structure Catalog.HousedIn (root : Path) (d : Disk) (c : Catalog) : Prop where
  homes : ∀ db ∈ c.databases, d.node ((FileStore.mk root).place db) = .ok .directory
  safe : ∀ db ∈ c.databases, Name.check db = .ok ()
  flat : (FileStore.mk root).Flat d

section

variable {root : Path} {d : Disk} {c : Catalog}

/-- A program that follows the protocol ends in a world that fits its last phase. -/
theorem Program.Follows.run_housed {α : Type} {post : Phase → α → Prop} {p : Program α} {φ : Phase}
    (hp : p.Follows post φ) (h : φ.Housed root d c) :
    ∃ ψ d' c', (p.run (keptIn d root c)).2 = keptIn d' root c' ∧ ψ.Housed root d' c' ∧
      post ψ (p.run (keptIn d root c)).1 := by
  induction p generalizing φ d c with
  | done a => exact ⟨φ, d, c, rfl, h, hp⟩
  | call call next ih =>
    obtain ⟨ψ, χ, hs, hok, herror⟩ := hp
    unfold Program.run
    have hafter := hs.housed h
    generalize call.perform (keptIn d root c) = next at hafter ⊢
    cases hafter with
    | ok h' => exact ih _ (hok _) h'
    | error h' => exact ih _ (herror _) h'

/-- After a query, whatever its outcome, every database has its directory. -/
theorem Session.execute_housed (s : Session) (query : String) (args : List Argument) (hsaved : c.SavedIn root d)
    (h : c.HousedIn root d) : ∃ d' c', ((s.execute query args).run (keptIn d root c)).2 = keptIn d' root c' ∧
      c'.SavedIn root d' ∧ c'.HousedIn root d' := by
  have hstart : Phase.Housed root .start d c := ⟨hsaved.home, fun db hdb _ => h.homes db hdb, nofun, h.safe, h.flat⟩
  obtain ⟨ψ, d', c', hrun, hend, hsettles⟩ := (s.execute_follows query args).run_housed hstart
  obtain ⟨d'', c'', hrun', hsaved', -⟩ := s.execute_settled query args hsaved
  rw [hrun] at hrun'
  cases hrun'
  refine ⟨d', c', hrun, hsaved', fun db hdb => hend.homes db hdb ?_, hend.safe, hend.flat⟩
  rw [hsettles.ends.unhoused]
  exact nofun

end

end FragmentEngine
