import FragmentEngine.Proofs.Store.Files
/-!
# Directories that stay

Files come and go without a change of the directories, and a directory is found as long as no directory goes. So what
is done to one database leaves the directories of the others.
-/

namespace FragmentEngine

namespace Disk

variable {d d' : Disk} {p q : Path} {name : String} {bytes : Bytes}

/-- A directory is found as long as no directory goes. -/
theorem node_mono (h : ∀ p : Path, d.nodes[p]? = some .directory → d'.nodes[p]? = some .directory)
    (hp : d.node p = .ok .directory) : d'.node p = .ok .directory := by
  have hfind : ∀ (p start : Path), d.find start p = .ok .directory → d'.find start p = .ok .directory := by
    intro p
    induction p with
    | nil => exact fun _ _ => rfl
    | cons name rest ih =>
      intro start hp
      obtain ⟨node, hentry, hp⟩ := Outcome.bind_eq_ok.1 hp
      cases node with
      | file bytes =>
        dsimp only at hp
        split at hp <;> cases hp
      | directory =>
        have hshort : ¬nameLimit < name.utf8ByteSize := fun hlong => by
          rw [entry, if_pos hlong] at hentry
          cases hentry
        have hentry' : d'.entry start name = .ok .directory := by
          rw [entry, if_neg hshort, h _ (get_of_entry hentry)]
        rw [find, hentry']
        exact ih _ hp
  exact hfind p [] hp

/-- Two disks that differ in nothing but files. -/
def SameDirectories (d d' : Disk) : Prop :=
  ∀ p : Path, d'.nodes[p]? = some .directory ↔ d.nodes[p]? = some .directory

namespace SameDirectories

theorem refl (d : Disk) : SameDirectories d d := fun _ => Iff.rfl

theorem trans {d'' : Disk} (h : SameDirectories d d') (h' : SameDirectories d' d'') : SameDirectories d d'' :=
  fun p => (h' p).trans (h p)

theorem node (h : SameDirectories d d') (hp : d.node p = .ok .directory) : d'.node p = .ok .directory :=
  node_mono (fun p => (h p).2) hp

theorem insert (hp : d.nodes[p]? ≠ some .directory) (bytes : Bytes) :
    SameDirectories d ⟨d.nodes.insert p (.file bytes)⟩ := by
  intro q
  rw [get_insert]
  split
  · rename_i hq
    subst hq
    exact ⟨nofun, fun h => absurd h hp⟩
  · rfl

theorem erase (hp : d.nodes[p]? ≠ some .directory) : SameDirectories d ⟨d.nodes.erase p⟩ := by
  intro q
  rw [get_erase]
  split
  · rename_i hq
    subst hq
    exact ⟨nofun, fun h => absurd h hp⟩
  · rfl

theorem write (h : d.write p bytes = .ok d') : SameDirectories d d' := by
  have hnodes := nodes_write h
  obtain ⟨nodes⟩ := d'
  subst hnodes
  refine insert (fun hp => ?_) bytes
  obtain ⟨above, habove, h⟩ := Outcome.bind_eq_ok.1 h
  cases above with
  | file b => cases h
  | directory =>
    dsimp only at h
    have hnode : d.node p = .ok .directory ∨ ∃ e, d.node p = .error e ∧ e ≠ .notFound := by
      rcases List.eq_nil_or_concat p with rfl | ⟨front, name, rfl⟩
      · exact .inl rfl
      · rw [List.concat_eq_append] at hp habove ⊢
        rw [List.dropLast_concat] at habove
        rw [node_append habove, entry, hp]
        split
        · exact .inr ⟨_, rfl, by decide⟩
        · exact .inl rfl
    rcases hnode with hnode | ⟨e, hnode, hne⟩
    · rw [hnode] at h
      cases h
    · rw [hnode] at h
      split at h <;> simp_all

theorem rename (hp : p ≠ []) (h : d.rename p q = .ok d') : SameDirectories d d' := by
  obtain ⟨bytes, hread, h⟩ := Outcome.bind_eq_ok.1 h
  obtain ⟨written, hwrite, h⟩ := Outcome.bind_eq_ok.1 h
  have hsame := write hwrite
  cases h
  split
  · exact hsame
  · refine hsame.trans (erase fun hdirectory => ?_)
    rw [hsame, get_of_read hread hp] at hdirectory
    cases hdirectory

theorem remove (hp : p ≠ []) (h : d.remove p = .ok d') : SameDirectories d d' := by
  have hnodes := nodes_remove h
  obtain ⟨nodes⟩ := d'
  subst hnodes
  refine erase fun hdirectory => ?_
  obtain ⟨⟨⟩, hread, -⟩ := Outcome.bind_eq_ok.1 h
  cases hfile : d.read p with
  | error e =>
    rw [hfile] at hread
    cases hread
  | ok bytes =>
    rw [get_of_read hfile hp] at hdirectory
    cases hdirectory

end SameDirectories

/-! ## Directories that are made -/

theorem SameOutside.node (h : SameOutside p d d') (hq : ¬p <+: q) : d'.node q = d.node q :=
  find_congr fun _ hk => h _ fun hpk => hq (hpk.trans hk)

/-- A directory that is made is found, and so is every one that was there. -/
theorem node_addDirectory (hp : d.node p = .ok .directory) (h : d.addDirectory p name = .ok d') :
    d'.node (p ++ [name]) = .ok .directory ∧ ∀ q, d.node q = .ok .directory → d'.node q = .ok .directory := by
  unfold addDirectory at h
  cases hentry : d.entry p name with
  | ok node =>
    rw [hentry] at h
    cases node with
    | file bytes => cases h
    | directory =>
      cases h
      exact ⟨by rw [node_append hp, hentry], fun _ => id⟩
  | error e =>
    rw [hentry] at h
    cases e <;> cases h
    have hshort : ¬nameLimit < name.utf8ByteSize := fun hlong => by
      rw [entry, if_pos hlong] at hentry
      cases hentry
    have hmono (q : Path) (hq : d.node q = .ok .directory) :
        (Disk.mk (d.nodes.insert (p ++ [name]) .directory)).node q = .ok .directory := by
      refine node_mono (fun k hk => ?_) hq
      rw [get_insert]
      split
      · rfl
      · exact hk
    refine ⟨?_, hmono⟩
    rw [node_append (hmono p hp), entry, if_neg hshort, get_insert, if_pos rfl]

end Disk

namespace FileStore

variable {s : FileStore} {d d' : Disk} {db x name y ending : String} {f : Fragment}

theorem file_ne_nil : s.file db name ending ≠ [] := by simp [file]

/-- Also where the fragment could not be put. -/
theorem sameDirectories_putFragment (s : FileStore) (d : Disk) (db : String) (f : Fragment) :
    Disk.SameDirectories d (s.putFragment d db f).2 := by
  unfold FileStore.putFragment
  cases hwrite : s.writeDraft d db f with
  | error e => exact .refl d
  | ok written =>
    have hwritten : Disk.SameDirectories d written := by
      obtain ⟨home, -, hwrite⟩ := Outcome.bind_eq_ok.1 hwrite
      split at hwrite
      · cases hwrite
      · obtain ⟨p, -, hwrite⟩ := Outcome.bind_eq_ok.1 hwrite
        exact .write (lift_eq_ok.1 hwrite)
    dsimp only
    cases hmove : s.moveDraft written db f.name with
    | error e => exact hwritten
    | ok moved =>
      obtain ⟨source, hsource, hmove⟩ := Outcome.bind_eq_ok.1 hmove
      obtain ⟨target, -, hmove⟩ := Outcome.bind_eq_ok.1 hmove
      obtain ⟨-, rfl⟩ := fragmentPath_eq_ok hsource
      exact hwritten.trans (.rename file_ne_nil (lift_eq_ok.1 hmove))

theorem sameDirectories_deleteFragment (h : s.deleteFragment d db name = .ok d') : Disk.SameDirectories d d' := by
  obtain ⟨p, hp, h⟩ := Outcome.bind_eq_ok.1 h
  obtain ⟨-, rfl⟩ := fragmentPath_eq_ok hp
  exact .remove file_ne_nil (orElse_eq_ok.1 h)

/-- No directory stands where a file of a fragment is to be. -/
def Flat (s : FileStore) (d : Disk) : Prop :=
  ∀ db name ending, d.nodes[s.file db name ending]? ≠ some .directory

theorem Flat.sameDirectories (h : s.Flat d) (hsame : Disk.SameDirectories d d') : s.Flat d' :=
  fun db name ending hfile => h db name ending ((hsame _).1 hfile)

theorem Flat.putDatabase (h : s.Flat d) (hput : s.putDatabase d db = .ok d') : s.Flat d' := by
  obtain ⟨⟨⟩, -, hput⟩ := Outcome.bind_eq_ok.1 hput
  rcases Disk.nodes_addDirectory (lift_eq_ok.1 hput) with rfl | hnodes
  · exact h
  · obtain ⟨nodes⟩ := d'
    subst hnodes
    intro x name ending
    have hne : s.root ++ [db] ≠ s.file x name ending := place_ne_file
    rw [Disk.get_insert, if_neg hne]
    exact h x name ending

theorem Flat.deleteDatabase (h : s.Flat d) (hdelete : s.deleteDatabase d db = .ok d') : s.Flat d' := by
  obtain ⟨p, -, hdelete⟩ := Outcome.bind_eq_ok.1 hdelete
  have hnodes := Disk.nodes_removeDirectory (orElse_eq_ok.1 hdelete)
  obtain ⟨nodes⟩ := d'
  subst hnodes
  intro x name ending
  rw [Disk.get_filter]
  split
  · exact h x name ending
  · exact nofun

end FileStore

end FragmentEngine
