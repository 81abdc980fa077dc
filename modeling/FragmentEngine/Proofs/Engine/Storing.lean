import FragmentEngine.Proofs.Engine.Held
import FragmentEngine.Proofs.Engine.Housing
/-!
# Storing a new fragment

After any queries a fragment can be stored under every new name in every database of the catalog, in memory and in
files, and it is read back as it was stored. Only a name that is too long for a file is refused.
-/

namespace FragmentEngine

open Query
open World (keptIn)

variable {w : World} {d : Disk} {root : Path} {c c' : Catalog} {m : MemoryStore} {db : String} {f : Fragment}
  {device : Option String} {e : Error}

/-! ## Engines that are ready -/

namespace World

/-- Every database of the catalog is in the store, and the catalog can be saved. -/
inductive Ready : World → Prop
  | memory {d : Disk} {c : Catalog} {m : MemoryStore} (h : Consistent c m) : Ready (memory d c m)
  | files {d : Disk} {root : Path} {c : Catalog} (hsaved : c.SavedIn root d) (hhoused : c.HousedIn root d) :
      Ready (keptIn d root c)

theorem Ready.of_startsEmpty (h : w.StartsEmpty) : w.Ready := by
  cases h with
  | inMemory d => exact .memory .empty
  | keptIn h =>
    refine .files ⟨h.directory, .empty, .inr ⟨h.bare _ (List.prefix_append _ _) (by simp), rfl⟩⟩ ⟨?_, ?_, ?_⟩
    · intro db hdb
      simp [Catalog.empty] at hdb
    · intro db hdb
      simp [Catalog.empty] at hdb
    · intro db name ending
      rw [h.bare _ FileStore.root_below_file.1 FileStore.root_below_file.2]
      exact (Option.some_ne_none _).symm

/-- If the engine keeps files, the name is not too long for one. -/
def CanName (w : World) (name : String) : Prop := ∀ s, w.store = .files s → Name.Fits ".frag" name

instance (w : World) (name : String) : Decidable (w.CanName name) :=
  match w with
  | ⟨_, _, _, .files s⟩ =>
    decidable_of_iff ((name ++ ".frag").utf8ByteSize ≤ Disk.nameLimit ∧ Name.check name = .ok ())
      ⟨fun h _ _ => ⟨h.2, h.1⟩, fun h => ⟨(h s rfl).short, (h s rfl).safe⟩⟩
  | ⟨_, _, _, .memory _⟩ => isTrue nofun

/-- The second world keeps files only if the first one does. -/
def Alike (w w' : World) : Prop := ∀ s, w'.store = .files s → w.store = .files s

theorem Alike.canKeep {w' : World} (h : w.Alike w') {call : Call} (hkeep : w.CanKeep call) : w'.CanKeep call := by
  cases call with
  | putFragment db f => exact fun s hs => hkeep s (h s hs)
  | _ => trivial

end World

namespace Shared

variable {S : Shared}

theorem execute_ready (h : S.world.Ready) (i : Nat) (query : String) (args : List Argument) :
    (S.execute i query args).world.Ready ∧ S.world.Alike (S.execute i query args).world := by
  generalize hworld : S.world = w at h
  cases h with
  | memory h =>
    obtain ⟨c', m', hnext, h'⟩ := execute_consistent hworld h i query args
    rw [hnext]
    exact ⟨.memory h', nofun⟩
  | @files d root c hsaved hhoused =>
    obtain ⟨d', c', hrun, hsaved', hhoused'⟩ := (S.sessions i).execute_housed query args hsaved hhoused
    have hnext : (S.execute i query args).world = keptIn d' root c' := by
      unfold execute
      rw [hworld]
      exact hrun
    rw [hnext]
    exact ⟨.files hsaved' hhoused', fun _ => id⟩

/-- Queries one after another, whatever their outcomes, leave the engine ready. -/
theorem run_ready (h : S.world.Ready) (queries : List (Nat × String × List Argument)) :
    (S.run queries).world.Ready ∧ S.world.Alike (S.run queries).world := by
  induction queries generalizing S with
  | nil => exact ⟨h, fun _ => id⟩
  | cons q rest ih =>
    obtain ⟨hnext, halike⟩ := execute_ready h q.1 q.2.1 q.2.2
    obtain ⟨hend, halike'⟩ := ih hnext
    exact ⟨hend, fun s hs => halike s (halike' s hs)⟩

end Shared

/-! ## Storing -/

namespace Catalog

/-- A fragment is entered under a new name, and is found there. -/
theorem addFragment_new (hdb : db ∈ c.databases) (hnew : key db f.name ∉ c.fragments) (device : Option String) :
    ∃ c', c.addFragment (.describe db device f) = .ok c' ∧ c'.fragment db f.name = .ok (.describe db device f) := by
  obtain ⟨entry, hentry⟩ := Maps.get_of_mem hdb
  refine ⟨_, addFragment_eq_ok.2 ⟨hnew, entry, hentry, rfl⟩, fragment_eq_ok.2 ⟨?_, Maps.get_insert.trans (if_pos rfl)⟩⟩
  exact Maps.mem_insert.2 (.inl rfl)

end Catalog

theorem World.perform_addFragment {entry : FragmentEntry} (h : w.catalog.addFragment entry = .ok c') :
    (Call.addFragment entry).perform w = (.ok (), { w with catalog := c' }) := by
  simp [Call.perform, withCatalog, h, Except.map]

namespace Request

theorem check_of_qualified {text name : String} {default : Option String}
    (h : qualified text default = .ok (db, name)) : Name.check db = .ok () ∧ Name.check name = .ok () := by
  have checked {x n : String} (h : (do Name.check x; Name.check n; return (x, n)) = Except.ok (db, name)) :
      Name.check db = .ok () ∧ Name.check name = .ok () := by
    obtain ⟨⟨⟩, hdb, h⟩ := Outcome.bind_eq_ok.1 h
    obtain ⟨⟨⟩, hname, h⟩ := Outcome.bind_eq_ok.1 h
    cases h
    exact ⟨hdb, hname⟩
  unfold qualified at h
  dsimp only at h
  split at h
  · exact checked h
  · split at h
    · exact checked h
    · cases h

/-- A fragment is stored if it is entered and put, and the catalog is saved. -/
theorem store_runIn {u v x : World} (hadd : (Call.addFragment (.describe db device f)).perform w = (.ok (), u))
    (hput : (Call.putFragment db f).perform u = (.ok (), v)) (hflush : Call.flush.perform v = (.ok (), x)) :
    (store f db device).runIn w = (.ok (), x) := by
  have hattempt : (Call.putFragment db f).attempt.runIn u = (.ok (.ok ()), v) := by rw [runIn_attempt, hput]
  unfold store
  rw [runIn_bind_ok (q := (Call.addFragment (.describe db device f)).make) hadd, runIn_bind_ok hattempt]
  exact hflush

/-- What keeps a fragment from being put is the outcome, the fragment being released again. -/
theorem store_refused {u v : World} (hadd : (Call.addFragment (.describe db device f)).perform w = (.ok (), u))
    (hput : (Call.putFragment db f).perform u = (.error e, v)) :
    ∃ x, (store f db device).runIn w = (.error e, x) := by
  have hattempt : (Call.putFragment db f).attempt.runIn u = (.ok (.error e), v) := by rw [runIn_attempt, hput]
  unfold store
  rw [runIn_bind_ok (q := (Call.addFragment (.describe db device f)).make) hadd, runIn_bind_ok hattempt]
  dsimp only
  rw [discard_bind, runIn_bind_ok (runIn_attempt _ v)]
  exact ⟨_, rfl⟩

/-- In memory nothing changes but the new fragment. -/
theorem store_new_memory (h : Consistent c m) (hname : Name.check f.name = .ok ()) (hdb : db ∈ c.databases)
    (hnew : Catalog.key db f.name ∉ c.fragments) (device : Option String) : ∃ c' m',
      (store f db device).runIn (.memory d c m) = (.ok (), .memory d c' m') ∧
        c'.fragment db f.name = .ok (.describe db device f) ∧
        ∀ x n, m'.getFragment x n = if x = db ∧ n = f.name then .ok f else m.getFragment x n := by
  obtain ⟨c', hadd, hfound⟩ := Catalog.addFragment_new hdb hnew device
  obtain ⟨m', hput⟩ : ∃ m', m.putFragment db f = .ok m' :=
    ⟨_, MemoryStore.putFragment_eq_ok.2 ⟨hname, (h.databases db).1 hdb, rfl⟩⟩
  refine ⟨c', m', store_runIn (u := .memory d c' m) (v := .memory d c' m') (World.perform_addFragment hadd) ?_ rfl,
    hfound, fun x n => ?_⟩
  · simp [Call.perform_memory, Call.inMemory, hput, Except.map]
  · unfold MemoryStore.getFragment
    rw [MemoryStore.fragments_putFragment hput]
    by_cases hx : db = x
    · subst hx
      rw [if_pos rfl, Maps.get_insert]
      by_cases hn : f.name = n
      · rw [if_pos hn, if_pos ⟨rfl, hn.symm⟩]
      · rw [if_neg hn, if_neg fun he => hn he.2.symm]
    · rw [if_neg hx, if_neg fun he => hx he.1.symm]

theorem store_new_files (hsaved : c.SavedIn root d) (hhoused : c.HousedIn root d) (hname : Name.Fits ".frag" f.name)
    (hfits : Image.Fits f) (hdb : db ∈ c.databases) (hnew : Catalog.key db f.name ∉ c.fragments)
    (device : Option String) : ∃ d' c', (store f db device).runIn (keptIn d root c) = (.ok (), keptIn d' root c') ∧
      c'.fragment db f.name = .ok (.describe db device f) ∧ (FileStore.mk root).getFragment d' db f.name = .ok f := by
  obtain ⟨c', hadd, hfound⟩ := Catalog.addFragment_new hdb hnew device
  have hsafe := hhoused.safe db hdb
  have hput := FileStore.putFragment_free hsafe (hhoused.homes db hdb) (hhoused.flat _ _ _) hname (hhoused.flat _ _ _)
  have hperform : (Call.putFragment db f).perform (keptIn d root c') =
      (.ok (), keptIn ((FileStore.mk root).withImage d db f) root c') := by
    simp [Call.perform, World.putFragment, keptIn, hput]
  obtain ⟨x, d', hperform', haside⟩ := perform_putFragment root d c' db f
  rw [hperform] at hperform'
  cases hperform'
  obtain ⟨hflush, -, -⟩ := hsaved.flush haside (hsaved.coherent.addFragment hadd)
  refine ⟨_, c', store_runIn (World.perform_addFragment hadd) hperform hflush, hfound, ?_⟩
  -- The directory of the database is still there, and the catalog is not saved in place of the image.
  have hdirectories := (FileStore.mk root).sameDirectories_putFragment d db f
  rw [hput] at hdirectories
  have hplace := (Disk.SameDirectories.insert (hsaved.aside haside).free (Text.Utf8.encode c'.render)).node
    (hdirectories.node (hhoused.homes db hdb))
  refine FileStore.getFragment_image hsafe hname hplace hfits ?_
  refine (Disk.get_insert.trans (if_neg World.Holds.catalogFile_ne_image)).trans ?_
  rw [FileStore.get_withImage, if_neg FileStore.draft_ne_image, if_pos rfl]

/-- In an engine that is ready a fragment is stored under a new name, and read back as it was. -/
theorem store_new (h : w.Ready) (hname : Name.check f.name = .ok ()) (hfits : w.CanName f.name)
    (hkeep : w.CanKeep (.putFragment db f)) (hdb : db ∈ w.catalog.databases)
    (hnew : Catalog.key db f.name ∉ w.catalog.fragments) (device : Option String) :
    ∃ w', (store f db device).runIn w = (.ok (), w') ∧ w'.catalog.fragment db f.name = .ok (.describe db device f) ∧
      w'.getFragment db f.name = .ok f := by
  cases h with
  | memory h =>
    obtain ⟨c', m', hrun, hfound, hget⟩ := store_new_memory h hname hdb hnew device
    exact ⟨_, hrun, hfound, (hget db f.name).trans (if_pos ⟨rfl, rfl⟩)⟩
  | files hsaved hhoused =>
    obtain ⟨d', c', hrun, hfound, hget⟩ :=
      store_new_files hsaved hhoused (hfits _ rfl) (hkeep _ rfl) hdb hnew device
    exact ⟨_, hrun, hfound, hget⟩

/-- In an engine that keeps files a fragment is not stored under a name that is too long for one. -/
theorem store_tooLong (h : w.Ready) (hname : Name.check f.name = .ok ()) (hlong : ¬w.CanName f.name)
    (hdb : db ∈ w.catalog.databases) (hnew : Catalog.key db f.name ∉ w.catalog.fragments) (device : Option String) :
    ∃ w', (store f db device).runIn w = (.error (.disk .nameTooLong), w') := by
  cases h with
  | memory h => exact absurd nofun hlong
  | @files d root c hsaved hhoused =>
    obtain ⟨c', hadd, -⟩ := Catalog.addFragment_new hdb hnew device
    obtain ⟨d', hput⟩ := FileStore.putFragment_tooLong (hhoused.safe db hdb) (hhoused.homes db hdb)
      (hhoused.flat _ _ _) hname fun hfits => hlong fun _ _ => hfits
    refine store_refused (u := keptIn d root c') (v := keptIn d' root c') (World.perform_addFragment hadd) ?_
    simp [Call.perform, World.putFragment, keptIn, hput]

end Request

end FragmentEngine
