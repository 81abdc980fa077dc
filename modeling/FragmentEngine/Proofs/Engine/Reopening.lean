import FragmentEngine.Proofs.Catalog.Form
import FragmentEngine.Proofs.Engine.Agreement
import FragmentEngine.Proofs.Engine.Saving
/-!
# Opening an engine again

The route to a directory leads to it again after any changes below it, and the file in it is read as the catalog that
was saved. So a second engine opened on the directory of a first one has its catalog and its fragments.
-/

namespace FragmentEngine

/-! ## Routes that are taken again -/

namespace Disk

variable {d d' : Disk} {root p q : Path} {name : String} {n : Node} {steps : List String} {r : Route}

/-- Nothing is found below an empty directory. -/
theorem IsEmptyDirectory.not_below (hempty : d.IsEmptyDirectory root) (h : d.node p = .ok n) :
    ¬(root <+: p ∧ p ≠ root) := by
  rintro ⟨hwithin, hne⟩
  have hp : p ≠ [] := by
    rintro rfl
    exact hne (List.prefix_nil.1 hwithin).symm
  have hnone := hempty.bare p hwithin hne
  rw [get_of_node h hp] at hnone
  cases hnone

/-- A step to what stands there leads there after any changes below an empty directory. -/
theorem step_kept (hempty : d.IsEmptyDirectory root) (hsame : SameBut root d d') (hp : d.node p = .ok .directory)
    (h : d.step p name = .ok q) : d'.step p name = .ok q := by
  unfold step at h ⊢
  split_ifs at h ⊢ with hstay hup
  · exact h
  · exact h
  · obtain ⟨node, hentry, rfl⟩ := Outcome.map_eq_ok.1 h
    have hnode : d.node (p ++ [name]) = .ok node := by rw [node_append hp, hentry]
    have hbelow := hempty.not_below hnode
    have hentry' : d'.entry p name = d.entry p name := by
      unfold entry
      rw [hsame _ hbelow]
    rw [hentry', hentry]
    rfl

/-- A way that leads somewhere leads there after any changes below an empty directory. -/
theorem walk_kept (hempty : d.IsEmptyDirectory root) (hsame : SameBut root d d') (h : d.walk p steps = .ok q) :
    d'.walk p steps = .ok q := by
  induction steps generalizing p with
  | nil => exact h
  | cons name rest ih =>
    rw [walk] at h ⊢
    split at h
    · rename_i hdirectory
      have hnode := isDirectory_iff.1 hdirectory
      have hdirectory' : d'.isDirectory p = true := by
        rw [isDirectory_iff, hsame.node (hempty.not_below hnode), hnode]
      obtain ⟨next, hstep, h⟩ := Outcome.bind_eq_ok.1 h
      rw [if_pos hdirectory', step_kept hempty hsame hnode hstep]
      exact ih h
    · cases h

theorem locate_kept (hempty : d.IsEmptyDirectory root) (hsame : SameBut root d d') (h : d.locate r = .ok root) :
    d'.locate r = .ok root := by
  obtain ⟨⟨⟩, hcheck, h⟩ := Outcome.bind_eq_ok.1 h
  obtain ⟨p, hwalk, h⟩ := Outcome.bind_eq_ok.1 h
  have hp : p = root := by
    split at h <;> cases h
    rfl
  subst hp
  have hdirectory : d'.isDirectory p = true := by rw [isDirectory_iff, hsame.home, hempty.directory]
  unfold locate
  rw [hcheck, Outcome.ok_bind, walk_kept hempty hsame hwalk, Outcome.ok_bind, hdirectory]
  simp [pure, Except.pure]

/-! ## Directories that are there -/

theorem walk_concat (d : Disk) (p : Path) (steps : List String) (name : String) :
    d.walk p (steps ++ [name]) = (d.walk p steps >>= fun q =>
      if d.isDirectory q then d.step q name else .error .notDirectory) := by
  induction steps generalizing p with
  | nil =>
    rw [List.nil_append, walk, walk, Outcome.ok_bind]
    split
    · cases d.step p name <;> rfl
    · rfl
  | cons first rest ih =>
    rw [List.cons_append, walk, walk]
    split
    · cases hstep : d.step p first with
      | error e => rfl
      | ok next =>
        rw [Outcome.ok_bind, Outcome.ok_bind]
        exact ih next
    · rfl

/-- A directory that is there is not made. -/
theorem makeLast_present (h : d.walk p steps = .ok root) (hroot : d.node root = .ok .directory) :
    d.makeLast p steps = .ok d := by
  unfold makeLast
  split
  · rfl
  · rename_i name hlast
    obtain ⟨front, rfl⟩ := List.getLast?_eq_some_iff.1 hlast
    rw [walk_concat] at h
    obtain ⟨q, hwalk, h⟩ := Outcome.bind_eq_ok.1 h
    rw [List.dropLast_concat, hwalk, Outcome.ok_bind]
    split at h
    · rename_i hdirectory
      rw [hdirectory]
      unfold step at h
      split_ifs at h with hstay hup
      · simp [hstay, pure, Except.pure]
      · simp [hup, pure, Except.pure]
      · obtain ⟨node, hentry, rfl⟩ := Outcome.map_eq_ok.1 h
        rw [node_append (isDirectory_iff.1 hdirectory)] at hroot
        simp [hstay, hup, addDirectory, hroot]
    · cases h

theorem createDirectory_present (hroute : r.text.isEmpty = true ∨ d.locate r = .ok root)
    (hroot : d.node root = .ok .directory) : d.createDirectory r = .ok d := by
  unfold createDirectory
  rcases hroute with hworking | hlocate
  · rw [if_pos hworking]
    rfl
  · split
    · rfl
    · obtain ⟨⟨⟩, hcheck, h⟩ := Outcome.bind_eq_ok.1 hlocate
      obtain ⟨p, hwalk, h⟩ := Outcome.bind_eq_ok.1 h
      have hp : p = root := by
        split at h <;> cases h
        rfl
      subst hp
      rw [hcheck, Outcome.ok_bind, Route.ways, makeWays, makeLast_present hwalk hroot]

end Disk

/-! ## Opening -/

namespace World

variable {d d' : Disk} {r : Route} {root : Path} {c : Catalog} {w : World}

/-- Where an engine at the end of a route is kept. -/
def homeOf (d : Disk) (r : Route) : Except Error Path :=
  if r.text.isEmpty then pure Path.working else FileStore.lift (d.locate r)

theorem openRoute_eq_ok : openRoute d r = .ok w ↔ ∃ root, homeOf d r = .ok root ∧
    (if (r.entry catalogName).check.isOk then openAt d root else return keptIn d root .empty) = .ok w := by
  unfold openRoute homeOf
  by_cases hworking : r.text.isEmpty = true
  · rw [if_pos hworking, if_pos hworking]
    exact Outcome.bind_eq_ok
  · rw [if_neg hworking, if_neg hworking]
    exact Outcome.bind_eq_ok

/-- Without a file the catalog is empty. -/
theorem openCatalog_absent (hhome : d.node root = .ok .directory)
    (hnone : d.nodes[root ++ [catalogName]]? = none) : openCatalog d (root ++ [catalogName]) = .ok .empty := by
  have hnode := Disk.node_entry hhome (by decide : catalogName.utf8ByteSize ≤ Disk.nameLimit)
  rw [hnone] at hnode
  unfold openCatalog
  rw [if_neg]
  rw [Disk.exists_iff]
  rintro ⟨n, hn⟩
  rw [hnode] at hn
  cases hn

/-- The catalog in the file of a directory is the one that was saved. -/
theorem openCatalog_saved (h : c.SavedIn root d) (hsized : c.Sized) :
    openCatalog d (root ++ [catalogName]) = .ok c := by
  rcases h.saved with hfile | ⟨hnone, rfl⟩
  · have hread : d.read (root ++ [catalogName]) = .ok (Text.Utf8.encode c.render) :=
      Disk.read_file h.home (by decide) hfile
    have htext : readText d (root ++ [catalogName]) = .ok c.render := by
      unfold readText textOf
      rw [hread, FileStore.lift, Outcome.ok_bind, Text.Utf8.decode_encode]
    have hthere : d.exists? (root ++ [catalogName]) = true := by
      rw [Disk.exists_iff, Disk.node_entry h.home (by decide), hfile]
      exact ⟨_, rfl⟩
    unfold openCatalog
    rw [if_pos hthere, htext, Outcome.ok_bind, Catalog.read_render hsized]
  · exact openCatalog_absent h.home hnone

/-- What opening an engine in an empty directory gives. -/
theorem inDirectory_empty (hopen : (inDirectory d r).1 = .ok w) (hstore : w.store = .files ⟨root⟩)
    (hempty : w.disk.IsEmptyDirectory root) :
    w = keptIn w.disk root .empty ∧ homeOf w.disk r = .ok root := by
  unfold inDirectory at hopen
  cases hcreate : d.createDirectory r with
  | error e =>
    rw [hcreate] at hopen
    cases hopen
  | ok opened =>
    rw [hcreate] at hopen
    obtain ⟨home, hhome, hopen⟩ := openRoute_eq_ok.1 hopen
    split at hopen
    · obtain ⟨c, hcatalog, rfl⟩ := Outcome.map_eq_ok.1 hopen
      cases hstore
      have hnone := hempty.bare (root ++ [catalogName]) (List.prefix_append root _) (by simp)
      have hc := openCatalog_absent hempty.directory hnone
      rw [show (keptIn opened root c).disk = opened from rfl, hcatalog] at hc
      cases hc
      exact ⟨rfl, hhome⟩
    · cases hopen
      cases hstore
      exact ⟨rfl, hhome⟩

/-- A route that led to an empty directory leads to the engine that is kept there now. -/
theorem inDirectory_kept (hempty : d.IsEmptyDirectory root) (hsame : Disk.SameBut root d d')
    (hroute : (r.entry catalogName).check = .ok ()) (hhome : homeOf d r = .ok root) (h : c.SavedIn root d')
    (hsized : c.Sized) : inDirectory d' r = (.ok (keptIn d' root c), d') := by
  have hwhere : r.text.isEmpty = true ∨ d'.locate r = .ok root := by
    unfold homeOf at hhome
    split at hhome
    · exact .inl ‹_›
    · exact .inr (Disk.locate_kept hempty hsame (FileStore.lift_eq_ok.1 hhome))
  have hhome' : homeOf d' r = .ok root := by
    unfold homeOf at hhome ⊢
    split at hhome
    · rwa [if_pos ‹_›]
    · rename_i hnonempty
      rw [if_neg hnonempty, hwhere.resolve_left hnonempty]
      rfl
  have hroute' : openRoute d' r = .ok (keptIn d' root c) := by
    refine openRoute_eq_ok.2 ⟨root, hhome', ?_⟩
    have hcheck : (r.entry catalogName).check.isOk = true := by rw [hroute]; rfl
    rw [if_pos hcheck, openAt, openCatalog_saved h hsized]
    rfl
  unfold inDirectory
  rw [Disk.createDirectory_present hwhere h.home]
  dsimp only
  rw [hroute']

end World

/-! ## Opening after queries -/

namespace Shared

variable {d : Disk} {r : Route} {root : Path} {w : World} {c : Catalog} {S : Shared}

/-- Queries one after another, of any sessions, leave the catalog saved. -/
theorem run_settled (hworld : S.world = World.keptIn d root c) (h : c.SavedIn root d)
    (queries : List (Nat × String × List Argument)) :
    ∃ d' c', (S.run queries).world = World.keptIn d' root c' ∧ c'.SavedIn root d' ∧ Disk.SameBut root d d' := by
  induction queries generalizing S d c with
  | nil => exact ⟨d, c, hworld, h, .refl root d⟩
  | cons q rest ih =>
    obtain ⟨d', c', hrun, hsaved, hbelow⟩ := (S.sessions q.1).execute_settled q.2.1 q.2.2 h
    have hnext : (S.execute q.1 q.2.1 q.2.2).world = World.keptIn d' root c' := by
      unfold execute
      rw [hworld]
      exact hrun
    obtain ⟨d'', c'', hrest, hsaved', hbelow'⟩ := ih hnext hsaved
    exact ⟨d'', c'', hrest, hsaved', hbelow.trans hbelow'⟩

/-- An engine is opened in an empty directory and any sessions carry out queries, whatever their outcomes. Then the
engine that is opened by the same route is the first one as it is now: it has the same catalog and the same
fragments. -/
theorem run_reopened (e : Engine) (hopen : (World.inDirectory d r).1 = .ok w) (hstore : w.store = .files ⟨root⟩)
    (hempty : w.disk.IsEmptyDirectory root) (hroute : (r.entry World.catalogName).check = .ok ())
    (queries : List (Nat × String × List Argument)) (hsized : ((on e w).run queries).world.catalog.Sized) :
    World.inDirectory ((on e w).run queries).world.disk r =
      (.ok ((on e w).run queries).world, ((on e w).run queries).world.disk) := by
  obtain ⟨hw, hhome⟩ := World.inDirectory_empty hopen hstore hempty
  have hsaved : Catalog.empty.SavedIn root w.disk :=
    ⟨hempty.directory, .empty, .inr ⟨hempty.bare _ (List.prefix_append root _) (by simp), rfl⟩⟩
  obtain ⟨d', c', hrun, hsaved', hbelow⟩ := run_settled (S := on e w) hw hsaved queries
  rw [hrun] at hsized ⊢
  exact World.inDirectory_kept hempty hbelow hroute hhome hsaved' hsized

/-- An engine in a new directory `data`. -/
def inData : World :=
  World.keptIn ⟨Disk.empty.nodes.insert (Path.working ++ ["data"]) .directory⟩ (Path.working ++ ["data"]) .empty

/-- Queries of two sessions; the second and the last one fail. -/
def twoSessions : List (Nat × String × List Argument) :=
  [(0, "operation=create_db;db_name=db", []), (1, "operation=create_db;db_name=db", []),
    (1, "operation=create_frag;frag_name=db.f;field=id;field_type=long;run=0", []),
    (0, "operation=drop_frag;frag_name=db.g", [])]

theorem isEmptyDirectory_inData : inData.disk.IsEmptyDirectory (Path.working ++ ["data"]) where
  directory := rfl
  bare q hq hne := by
    have hwithin : Path.working <+: q := (List.prefix_append Path.working ["data"]).trans hq
    have hworking : q ≠ Path.working := by
      rintro rfl
      exact absurd hq.length_le (by decide)
    have hbefore := Disk.isEmptyDirectory_working.bare q hwithin hworking
    rw [← hbefore]
    exact Disk.get_insert.trans (if_neg hne.symm)

theorem run_reopened_twoSessions : (World.inDirectory Disk.empty ⟨"data"⟩).1 = .ok inData ∧
    inData.store = .files ⟨Path.working ++ ["data"]⟩ ∧ inData.disk.IsEmptyDirectory (Path.working ++ ["data"]) ∧
    ((⟨"data"⟩ : Route).entry World.catalogName).check = .ok () ∧
    ((on (.builtin 0) inData).run twoSessions).world.catalog.Sized ∧
    World.inDirectory ((on (.builtin 0) inData).run twoSessions).world.disk ⟨"data"⟩ =
      (.ok ((on (.builtin 0) inData).run twoSessions).world,
        ((on (.builtin 0) inData).run twoSessions).world.disk) := by
  have hopen : (World.inDirectory Disk.empty ⟨"data"⟩).1 = .ok inData := rfl
  have hroute : ((⟨"data"⟩ : Route).entry World.catalogName).check = .ok () := by decide +kernel
  have hsized : ((on (.builtin 0) inData).run twoSessions).world.catalog.Sized := by decide +kernel
  exact ⟨hopen, rfl, isEmptyDirectory_inData, hroute, hsized,
    run_reopened (.builtin 0) hopen rfl isEmptyDirectory_inData hroute twoSessions hsized⟩

end Shared

end FragmentEngine
