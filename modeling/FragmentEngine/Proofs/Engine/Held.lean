import FragmentEngine.Proofs.Engine.Atomic
import FragmentEngine.Proofs.Store
import FragmentEngine.Proofs.Store.Files
/-!
# What all stored fragments have

A property of fragments and the places they are stored at. If every fragment that is put has it, then so has every
fragment that a store answers, in memory and in files, as long as images can hold what is put into files.
-/

namespace FragmentEngine

variable {A : String × String → Fragment → Prop}

/-! ## In memory -/

/-- Every fragment has the property at its place. -/
def MemoryStore.Holds (A : String × String → Fragment → Prop) (m : MemoryStore) : Prop :=
  ∀ (db name : String) (f : Fragment), (m.fragments db)[name]? = some f → A (db, name) f

namespace MemoryStore.Holds

variable {m m' : MemoryStore} {db name : String} {f : Fragment}

theorem empty : Holds A ∅ := by
  intro db name f hf
  rw [fragments_absent Std.ExtTreeMap.not_mem_empty] at hf
  cases hf

theorem putDatabase (h : m.Holds A) (hput : m.putDatabase db = .ok m') : m'.Holds A := by
  intro x name f hf
  rw [fragments_putDatabase hput] at hf
  exact h x name f hf

theorem deleteDatabase (h : m.Holds A) (hdelete : m.deleteDatabase db = .ok m') : m'.Holds A := by
  intro x name f hf
  rw [fragments_deleteDatabase hdelete] at hf
  split at hf
  · cases hf
  · exact h x name f hf

theorem putFragment (h : m.Holds A) (hf : A (db, f.name) f) (hput : m.putFragment db f = .ok m') : m'.Holds A := by
  intro x name g hg
  rw [fragments_putFragment hput] at hg
  split at hg
  · rename_i hx
    subst hx
    rw [Maps.get_insert] at hg
    split at hg
    · rename_i hname
      cases hg
      exact hname ▸ hf
    · exact h db name g hg
  · exact h x name g hg

theorem deleteFragment (h : m.Holds A) (hdelete : m.deleteFragment db name = .ok m') : m'.Holds A := by
  intro x y g hg
  rw [fragments_deleteFragment hdelete] at hg
  split at hg
  · rename_i hx
    subst hx
    rw [Maps.get_erase] at hg
    split at hg
    · cases hg
    · exact h db y g hg
  · exact h x y g hg

end MemoryStore.Holds

/-! ## In files -/

namespace FileStore

/-- Every image is that of a fragment that has the property at its place and is read back from it. -/
def Holds (A : String × String → Fragment → Prop) (s : FileStore) (d : Disk) : Prop :=
  ∀ (db name : String) (bytes : Bytes), d.nodes[s.file db name "frag"]? = some (.file bytes) →
    ∃ f, A (db, name) f ∧ Image.Fits f ∧ bytes = Image.ofFragment f

namespace Holds

variable {s : FileStore} {d d' : Disk} {db name : String} {f : Fragment} {q : Path}

theorem empty (h : d.IsEmptyDirectory s.root) : s.Holds A d := by
  intro db name bytes hfile
  rw [h.bare _ root_below_file.1 root_below_file.2] at hfile
  cases hfile

/-! A path that is no image may change, and an image may go. -/

theorem insert (h : s.Holds A d) {v : Node} (hq : ∀ db name, q ≠ s.file db name "frag") :
    s.Holds A ⟨d.nodes.insert q v⟩ := by
  intro db name bytes hfile
  rw [Disk.get_insert, if_neg (hq db name)] at hfile
  exact h db name bytes hfile

theorem erase (h : s.Holds A d) (q : Path) : s.Holds A ⟨d.nodes.erase q⟩ := by
  intro db name bytes hfile
  rw [Disk.get_erase] at hfile
  split at hfile
  · cases hfile
  · exact h db name bytes hfile

theorem filter (h : s.Holds A d) (keep : Path → Bool) : s.Holds A ⟨d.nodes.filter fun k _ => keep k⟩ := by
  intro db name bytes hfile
  rw [Disk.get_filter] at hfile
  split at hfile
  · exact h db name bytes hfile
  · cases hfile

/-- The image of a fragment that fits may come. -/
theorem insertImage (h : s.Holds A d) (hf : A (db, f.name) f) (hfits : Image.Fits f) :
    s.Holds A ⟨d.nodes.insert (s.file db f.name "frag") (.file (Image.ofFragment f))⟩ := by
  intro x name bytes hfile
  rw [Disk.get_insert] at hfile
  split at hfile
  · rename_i hplace
    obtain ⟨rfl, rfl⟩ := file_inj.1 hplace
    cases hfile
    exact ⟨f, hf, hfits, rfl⟩
  · exact h x name bytes hfile

/-! ## Operations -/

theorem putDatabase (h : s.Holds A d) (hput : s.putDatabase d db = .ok d') : s.Holds A d' := by
  obtain ⟨⟨⟩, -, hput⟩ := Outcome.bind_eq_ok.1 hput
  rcases Disk.nodes_addDirectory (lift_eq_ok.1 hput) with rfl | hnodes
  · exact h
  · obtain ⟨nodes⟩ := d'
    subst hnodes
    exact h.insert fun _ _ => place_ne_file

theorem deleteDatabase (h : s.Holds A d) (hdelete : s.deleteDatabase d db = .ok d') : s.Holds A d' := by
  obtain ⟨p, -, hdelete⟩ := Outcome.bind_eq_ok.1 hdelete
  have hnodes := Disk.nodes_removeDirectory (orElse_eq_ok.1 hdelete)
  obtain ⟨nodes⟩ := d'
  subst hnodes
  exact h.filter _

theorem deleteFragment (h : s.Holds A d) (hdelete : s.deleteFragment d db name = .ok d') : s.Holds A d' := by
  obtain ⟨p, -, hdelete⟩ := Outcome.bind_eq_ok.1 hdelete
  have hnodes := Disk.nodes_remove (orElse_eq_ok.1 hdelete)
  obtain ⟨nodes⟩ := d'
  subst hnodes
  exact h.erase _

theorem nodes_writeDraft (hwrite : s.writeDraft d db f = .ok d') :
    d'.nodes = d.nodes.insert (s.file db f.name "tmp") (.file (Image.ofFragment f)) := by
  obtain ⟨home, -, hwrite⟩ := Outcome.bind_eq_ok.1 hwrite
  split at hwrite
  · cases hwrite
  · obtain ⟨p, hp, hwrite⟩ := Outcome.bind_eq_ok.1 hwrite
    obtain ⟨-, rfl⟩ := fragmentPath_eq_ok hp
    exact Disk.nodes_write (lift_eq_ok.1 hwrite)

/-- A draft that is moved into place is the one that was written. -/
theorem nodes_moveDraft {bytes : Bytes} (hdraft : d.nodes[s.file db name "tmp"]? = some (.file bytes))
    (hmove : s.moveDraft d db name = .ok d') :
    d'.nodes = (d.nodes.insert (s.file db name "frag") (.file bytes)).erase (s.file db name "tmp") := by
  obtain ⟨source, hsource, hmove⟩ := Outcome.bind_eq_ok.1 hmove
  obtain ⟨target, htarget, hmove⟩ := Outcome.bind_eq_ok.1 hmove
  obtain ⟨-, rfl⟩ := fragmentPath_eq_ok hsource
  obtain ⟨-, rfl⟩ := fragmentPath_eq_ok htarget
  obtain ⟨moved, hread, hnodes⟩ := Disk.nodes_rename (lift_eq_ok.1 hmove)
  rw [if_neg draft_ne_image] at hnodes
  have hsame := Disk.get_of_read hread (by simp [file])
  rw [hdraft] at hsame
  cases hsame
  exact hnodes

/-- Also where the fragment could not be put. -/
theorem putFragment (h : s.Holds A d) (hf : A (db, f.name) f) (hfits : Image.Fits f) :
    s.Holds A (s.putFragment d db f).2 := by
  unfold FileStore.putFragment
  cases hwrite : s.writeDraft d db f with
  | error e => exact h
  | ok written =>
    have hnodes := nodes_writeDraft hwrite
    obtain ⟨nodes⟩ := written
    subst hnodes
    have hwritten := h.insert (v := .file (Image.ofFragment f)) (q := s.file db f.name "tmp") fun _ _ => draft_ne_image
    dsimp only
    cases hmove : s.moveDraft ⟨d.nodes.insert (s.file db f.name "tmp") (.file (Image.ofFragment f))⟩ db f.name with
    | error e => exact hwritten
    | ok moved =>
      have hmoved := nodes_moveDraft (Disk.get_insert.trans (if_pos rfl)) hmove
      obtain ⟨nodes⟩ := moved
      subst hmoved
      exact (hwritten.insertImage hf hfits).erase _

theorem getFragment (h : s.Holds A d) (hget : s.getFragment d db name = .ok f) : A (db, name) f := by
  obtain ⟨p, hp, hget⟩ := Outcome.bind_eq_ok.1 hget
  obtain ⟨-, rfl⟩ := fragmentPath_eq_ok hp
  obtain ⟨image, hread, hget⟩ := Outcome.bind_eq_ok.1 hget
  obtain ⟨g, hg, hfits, rfl⟩ := h db name image (Disk.get_of_read (orElse_eq_ok.1 hread) (by simp [file]))
  rw [Image.toFragment_ofFragment hfits] at hget
  cases hget
  exact hg

end Holds

end FileStore

/-! ## In an engine -/

/-- An engine without databases that keeps everything in memory or in an empty directory. -/
inductive World.StartsEmpty : World → Prop
  | inMemory (d : Disk) : StartsEmpty (inMemory d)
  | keptIn {d : Disk} {root : Path} (h : d.IsEmptyDirectory root) : StartsEmpty (keptIn d root .empty)

/-- Every stored fragment has the property at its place. -/
inductive World.Holds (A : String × String → Fragment → Prop) : World → Prop
  | memory {d : Disk} {c : Catalog} {m : MemoryStore} (h : m.Holds A) : Holds A (memory d c m)
  | files {d : Disk} {root : Path} {c : Catalog} (h : (FileStore.mk root).Holds A d) : Holds A (keptIn d root c)

/-- The store can keep what the call puts: in files an image has to hold it. -/
def World.CanKeep (w : World) : Call → Prop
  | .putFragment _ f => ∀ s, w.store = .files s → Image.Fits f
  | _ => True

instance (w : World) (c : Call) : Decidable (w.CanKeep c) :=
  match c, w with
  | .putFragment _ f, ⟨_, _, _, .files s⟩ => decidable_of_iff (Image.Fits f) ⟨fun h _ _ => h, fun h => h s rfl⟩
  | .putFragment _ _, ⟨_, _, _, .memory _⟩ => isTrue nofun
  | .listDatabases, _ | .findDatabase _, _ | .addDatabase _, _ | .removeDatabase _, _ | .findFragment _ _, _
  | .addFragment _, _ | .removeFragment _ _, _ | .flush, _ | .putDatabase _, _ | .deleteDatabase _, _
  | .getFragment _ _, _ | .deleteFragment _ _, _ | .readFile _, _ => isTrue trivial

/-- Memory can keep everything. -/
theorem World.canKeep_inMemory (d : Disk) (c : Call) : (inMemory d).CanKeep c := by
  cases c with
  | putFragment db f => exact nofun
  | _ => trivial

namespace Call

/-- If the call puts a fragment, it has the property at its place. -/
def Puts (A : String × String → Fragment → Prop) : Call → Prop
  | .putFragment db f => A (db, f.name) f
  | _ => True

/-- If the call is answered a fragment, it has the property at its place. -/
def Gives (A : String × String → Fragment → Prop) : (c : Call) → Except Error c.Reply → Prop
  | .getFragment db name, .ok f => A (db, name) f
  | _, _ => True

end Call

namespace World.Holds

variable {w : World} {c : Call}

theorem of_startsEmpty (h : w.StartsEmpty) : w.Holds A := by
  cases h with
  | inMemory d => exact .memory .empty
  | keptIn h => exact .files (.empty h)

theorem getFragment (h : w.Holds A) {db name : String} {f : Fragment} (hget : w.getFragment db name = .ok f) :
    A (db, name) f := by
  cases h with
  | memory h => exact h db name f (MemoryStore.getFragment_eq_ok.1 hget)
  | files h => exact h.getFragment hget

/-- A call keeps everything in memory that was kept there. -/
theorem perform_memory {d : Disk} {cat : Catalog} {m : MemoryStore} (h : m.Holds A) (hputs : c.Puts A) :
    ∃ cat' m', (c.perform (.memory d cat m)).2 = .memory d cat' m' ∧ m'.Holds A ∧
      c.Gives A (c.perform (.memory d cat m)).1 := by
  rw [Call.perform_memory]
  cases hcall : c.inMemory d cat m with
  | error e => exact ⟨cat, m, rfl, h, by cases c <;> trivial⟩
  | ok r =>
    obtain ⟨a, cat', m'⟩ := r
    refine ⟨cat', m', rfl, ?_⟩
    cases c with
    | listDatabases | flush =>
      cases hcall
      exact ⟨h, trivial⟩
    | putDatabase db =>
      obtain ⟨_, hput, hcall⟩ := Outcome.map_eq_ok.1 hcall
      cases hcall
      exact ⟨h.putDatabase hput, trivial⟩
    | deleteDatabase db =>
      obtain ⟨_, hdelete, hcall⟩ := Outcome.map_eq_ok.1 hcall
      cases hcall
      exact ⟨h.deleteDatabase hdelete, trivial⟩
    | putFragment db f =>
      obtain ⟨_, hput, hcall⟩ := Outcome.map_eq_ok.1 hcall
      cases hcall
      exact ⟨h.putFragment hputs hput, trivial⟩
    | deleteFragment db name =>
      obtain ⟨_, hdelete, hcall⟩ := Outcome.map_eq_ok.1 hcall
      cases hcall
      exact ⟨h.deleteFragment hdelete, trivial⟩
    | getFragment db name =>
      obtain ⟨_, hget, hcall⟩ := Outcome.map_eq_ok.1 hcall
      cases hcall
      exact ⟨h, h db name a (MemoryStore.getFragment_eq_ok.1 hget)⟩
    | _ =>
      obtain ⟨_, -, hcall⟩ := Outcome.map_eq_ok.1 hcall
      cases hcall
      exact ⟨h, trivial⟩

section

variable {d : Disk} {root : Path} {cat : Catalog}

/-- The file of the catalog is not where an image is. -/
theorem catalogFile_ne_image {db name : String} : root ++ [catalogName] ≠ (FileStore.mk root).file db name "frag" := by
  intro h
  have := congrArg List.length h
  simp [FileStore.file, FileStore.place] at this

/-- A call keeps everything in the directory that was kept there. -/
theorem perform_keptIn (h : (FileStore.mk root).Holds A d) (hputs : c.Puts A) (hkeep : (keptIn d root cat).CanKeep c) :
    ∃ d' cat', (c.perform (keptIn d root cat)).2 = keptIn d' root cat' ∧ (FileStore.mk root).Holds A d' ∧
      c.Gives A (c.perform (keptIn d root cat)).1 := by
  have changed {x : Except Error Disk} (hx : ∀ d', x = .ok d' → (FileStore.mk root).Holds A d') :
      ∃ d' cat', ((keptIn d root cat).replacedBy (do return { keptIn d root cat with disk := ← x })).2 =
        keptIn d' root cat' ∧ (FileStore.mk root).Holds A d' ∧ True := by
    cases x with
    | error e => exact ⟨d, cat, rfl, h, trivial⟩
    | ok d' => exact ⟨d', cat, rfl, hx d' rfl, trivial⟩
  have recorded {α : Type} (x : Except Error (α × Catalog)) :
      ∃ d' cat', ((keptIn d root cat).withCatalog x).2 = keptIn d' root cat' ∧ (FileStore.mk root).Holds A d' ∧
        True := by
    rcases x with e | ⟨a, cat'⟩
    · exact ⟨d, cat, rfl, h, trivial⟩
    · exact ⟨d, cat', rfl, h, trivial⟩
  cases c with
  | listDatabases | findDatabase _ | findFragment _ _ | readFile _ => exact ⟨d, cat, rfl, h, trivial⟩
  | getFragment db name =>
    refine ⟨d, cat, rfl, h, ?_⟩
    show Call.Gives A (.getFragment db name) ((FileStore.mk root).getFragment d db name)
    cases hget : (FileStore.mk root).getFragment d db name with
    | error e => trivial
    | ok f => exact h.getFragment hget
  | addDatabase _ | removeDatabase _ | addFragment _ | removeFragment _ _ => exact recorded _
  | flush =>
    refine changed fun d' hwrite => ?_
    have hnodes := Disk.nodes_write (FileStore.lift_eq_ok.1 hwrite)
    obtain ⟨nodes⟩ := d'
    subst hnodes
    exact h.insert fun _ _ => catalogFile_ne_image
  | putDatabase _ => exact changed fun d' hput => h.putDatabase hput
  | deleteDatabase _ => exact changed fun d' hdelete => h.deleteDatabase hdelete
  | deleteFragment _ _ => exact changed fun d' hdelete => h.deleteFragment hdelete
  | putFragment db f => exact ⟨_, cat, rfl, h.putFragment hputs (hkeep _ rfl), trivial⟩

end

/-- One call keeps what all stored fragments have, and is answered no others. -/
theorem perform (h : w.Holds A) (hputs : c.Puts A) (hkeep : w.CanKeep c) :
    (c.perform w).2.Holds A ∧ c.Gives A (c.perform w).1 ∧ ∀ c', w.CanKeep c' → (c.perform w).2.CanKeep c' := by
  cases h with
  | memory h =>
    obtain ⟨cat', m', hrun, h', hgives⟩ := perform_memory h hputs
    rw [hrun]
    refine ⟨.memory h', hgives, fun c' hc' => ?_⟩
    cases c' with
    | putFragment db f => exact nofun
    | _ => trivial
  | files h =>
    obtain ⟨d', cat', hrun, h', hgives⟩ := perform_keptIn h hputs hkeep
    rw [hrun]
    refine ⟨.files h', hgives, fun c' hc' => ?_⟩
    cases c' with
    | putFragment db f => exact fun _ _ => hc' _ rfl
    | _ => trivial

end World.Holds

end FragmentEngine
