import FragmentEngine.Proofs.Fragment.Image
import FragmentEngine.Proofs.Store
import FragmentEngine.Proofs.Store.Disk
/-!
# Databases kept in files

A directory of databases mirrors databases in memory: the same databases, the image of the same fragment under each
name, and no draft left over. Every operation on both gives the same answer and keeps it so, as long as names are safe
and short enough for a disk and images can hold the fragments.
-/

namespace FragmentEngine

/-- A safe name that is short enough for a disk, also with an ending. -/
structure Name.Fits (ending name : String) : Prop where
  safe : Name.check name = .ok ()
  short : (name ++ ending).utf8ByteSize ≤ Disk.nameLimit

theorem Name.Fits.entry {name : String} (h : Name.Fits "" name) : name.utf8ByteSize ≤ Disk.nameLimit := by
  have short := h.short
  rwa [String.append_empty] at short

namespace FileStore

variable {s : FileStore} {d d' : Disk} {m : MemoryStore} {db x name y ending : String} {f : Fragment}

/-! ## Outcomes -/

theorem lift_eq_ok {α : Type} {x : Except DiskError α} {a : α} : lift x = .ok a ↔ x = .ok a := by
  cases x <;> simp [lift]

theorem orElse_eq_ok {α : Type} {missing : StoreError} {x : Except DiskError α} {a : α} :
    orElse missing x = .ok a ↔ x = .ok a := by
  unfold orElse
  split <;> simp

/-! ## Places -/

/-- The directory of a database. -/
def place (s : FileStore) (db : String) : Path := s.root ++ [db]

/-- The file of a fragment with an ending. -/
def file (s : FileStore) (db name ending : String) : Path := s.place db ++ [s!"{name}.{ending}"]

theorem fileName (name ending : String) : s!"{name}.{ending}" = name ++ "." ++ ending := by
  simp [toString]

theorem utf8ByteSize_fileName (name ending : String) :
    s!"{name}.{ending}".utf8ByteSize = name.utf8ByteSize + 1 + ending.utf8ByteSize := by
  rw [fileName, String.utf8ByteSize_append, String.utf8ByteSize_append]
  rfl

theorem fileName_short (name ending : String) : s!"{name}.{ending}".utf8ByteSize ≤ Disk.nameLimit ↔
    (name ++ ("." ++ ending)).utf8ByteSize ≤ Disk.nameLimit := by
  rw [fileName, String.append_assoc]

/-- A name that is short enough for an image is short enough for a draft. -/
theorem short_of_fits (ending : String) (h : Name.Fits ".frag" name) (hending : ending.utf8ByteSize ≤ 4) :
    s!"{name}.{ending}".utf8ByteSize ≤ Disk.nameLimit := by
  have short := h.short
  rw [String.utf8ByteSize_append, show ".frag".utf8ByteSize = 5 from rfl] at short
  rw [utf8ByteSize_fileName]
  omega

theorem fits_draft (h : Name.Fits ".frag" name) : Name.Fits ".tmp" name :=
  ⟨h.safe, (fileName_short name "tmp").1 (short_of_fits "tmp" h (by decide))⟩

theorem fragmentPath_ok (hdb : Name.check db = .ok ()) (hname : Name.check name = .ok ()) :
    s.fragmentPath db name ending = .ok (s.file db name ending) := by
  unfold fragmentPath databasePath
  rw [hdb, hname]
  rfl

theorem databasePath_ok (hdb : Name.check db = .ok ()) : s.databasePath db = .ok (s.place db) := by
  unfold databasePath
  rw [hdb]
  rfl

theorem place_inj : s.place db = s.place x ↔ db = x := by simp [place]

theorem fileName_inj : s!"{name}.{ending}" = s!"{y}.{ending}" ↔ name = y := by
  rw [fileName, fileName]
  refine ⟨fun h => String.toList_inj.1 ?_, fun h => by rw [h]⟩
  simpa using congrArg String.toList h

theorem file_inj : s.file db name ending = s.file x y ending ↔ db = x ∧ name = y := by
  simp only [file, place, List.append_assoc, List.append_cancel_left_eq, List.singleton_append, List.cons.injEq,
    and_true, fileName_inj]

/-- The last letter of its ending tells a draft from an image. -/
theorem draft_ne_image : s.file db name "tmp" ≠ s.file x y "frag" := by
  intro h
  have hlast : (name ++ "." ++ "tmp").toList.getLast? = (y ++ "." ++ "frag").toList.getLast? := by
    have := congrArg List.getLast? h
    simp only [file, fileName, List.getLast?_concat, Option.some.injEq] at this
    rw [this]
  simp at hlast

theorem place_ne_file : s.place db ≠ s.file x y ending := by
  intro h
  have := congrArg List.length h
  simp [file, place] at this

theorem root_below_place : s.root <+: s.place db ∧ s.place db ≠ s.root := by simp [place]

theorem place_below_file : s.place db <+: s.file db name ending ∧ s.file db name ending ≠ s.place db := by
  simp [file]

theorem root_below_file : s.root <+: s.file db name ending ∧ s.file db name ending ≠ s.root := by
  simp [file, place]

theorem place_isPrefixOf_place : (s.place db).isPrefixOf (s.place x) = decide (db = x) := by
  rw [Bool.eq_iff_iff, List.isPrefixOf_iff_prefix, decide_eq_true_iff]
  simp [place]

theorem place_isPrefixOf_file : (s.place db).isPrefixOf (s.file x y ending) = decide (db = x) := by
  rw [Bool.eq_iff_iff, List.isPrefixOf_iff_prefix, decide_eq_true_iff]
  simp [file, place]

/-! ## What an operation leaves alone

An operation on a database, whether it succeeds or not, changes nothing outside the directory of the database. A name
that is not safe changes nothing at all. -/

theorem outside_putDatabase (h : s.putDatabase d db = .ok d') :
    Name.check db = .ok () ∧ Disk.SameOutside (s.place db) d d' := by
  obtain ⟨⟨⟩, hdb, h⟩ := Outcome.bind_eq_ok.1 h
  refine ⟨hdb, ?_⟩
  rcases Disk.nodes_addDirectory (lift_eq_ok.1 h) with rfl | hnodes
  · exact fun _ _ => rfl
  · obtain ⟨nodes⟩ := d'
    subst hnodes
    exact .of_insert List.prefix_rfl

theorem outside_deleteDatabase (h : s.deleteDatabase d db = .ok d') :
    Name.check db = .ok () ∧ Disk.SameOutside (s.place db) d d' := by
  obtain ⟨p, hp, h⟩ := Outcome.bind_eq_ok.1 h
  obtain ⟨⟨⟩, hdb, hp⟩ := Outcome.bind_eq_ok.1 hp
  cases hp
  refine ⟨hdb, ?_⟩
  have hnodes := Disk.nodes_removeDirectory (orElse_eq_ok.1 h)
  obtain ⟨nodes⟩ := d'
  subst hnodes
  exact .of_filter

theorem fragmentPath_eq_ok {p : Path} (h : s.fragmentPath db name ending = .ok p) :
    Name.check db = .ok () ∧ p = s.file db name ending := by
  obtain ⟨⟨⟩, hname, h⟩ := Outcome.bind_eq_ok.1 h
  obtain ⟨q, hq, h⟩ := Outcome.bind_eq_ok.1 h
  obtain ⟨⟨⟩, hdb, hq⟩ := Outcome.bind_eq_ok.1 hq
  cases hq
  cases h
  exact ⟨hdb, rfl⟩

theorem outside_deleteFragment (h : s.deleteFragment d db name = .ok d') :
    Name.check db = .ok () ∧ Disk.SameOutside (s.place db) d d' := by
  obtain ⟨p, hp, h⟩ := Outcome.bind_eq_ok.1 h
  obtain ⟨hdb, rfl⟩ := fragmentPath_eq_ok hp
  refine ⟨hdb, ?_⟩
  have hnodes := Disk.nodes_remove (orElse_eq_ok.1 h)
  obtain ⟨nodes⟩ := d'
  subst hnodes
  exact .of_erase place_below_file.1

theorem outside_writeDraft (h : s.writeDraft d db f = .ok d') :
    Name.check db = .ok () ∧ Disk.SameOutside (s.place db) d d' := by
  obtain ⟨home, hhome, h⟩ := Outcome.bind_eq_ok.1 h
  split at h
  · cases h
  · obtain ⟨p, hp, h⟩ := Outcome.bind_eq_ok.1 h
    obtain ⟨hdb, rfl⟩ := fragmentPath_eq_ok hp
    refine ⟨hdb, ?_⟩
    have hnodes := Disk.nodes_write (lift_eq_ok.1 h)
    obtain ⟨nodes⟩ := d'
    subst hnodes
    exact .of_insert place_below_file.1

theorem outside_moveDraft (h : s.moveDraft d db name = .ok d') : Disk.SameOutside (s.place db) d d' := by
  obtain ⟨source, hsource, h⟩ := Outcome.bind_eq_ok.1 h
  obtain ⟨target, htarget, h⟩ := Outcome.bind_eq_ok.1 h
  obtain ⟨-, rfl⟩ := fragmentPath_eq_ok hsource
  obtain ⟨-, rfl⟩ := fragmentPath_eq_ok htarget
  obtain ⟨bytes, -, hnodes⟩ := Disk.nodes_rename (lift_eq_ok.1 h)
  rw [if_neg draft_ne_image] at hnodes
  intro q hq
  rw [hnodes]
  refine .trans (Disk.SameOutside.of_erase place_below_file.1 q hq) ?_
  exact Disk.SameOutside.of_insert place_below_file.1 q hq

/-- Also a fragment that could not be put. -/
theorem outside_putFragment (s : FileStore) (d : Disk) (db : String) (f : Fragment) :
    (s.putFragment d db f).2 = d ∨
      (Name.check db = .ok () ∧ Disk.SameOutside (s.place db) d (s.putFragment d db f).2) := by
  unfold FileStore.putFragment
  cases hwrite : s.writeDraft d db f with
  | error e => exact .inl rfl
  | ok written =>
    obtain ⟨hdb, houtside⟩ := outside_writeDraft hwrite
    refine .inr ⟨hdb, ?_⟩
    dsimp only
    cases hmove : s.moveDraft written db f.name with
    | error e => exact houtside
    | ok moved => exact fun q hq => (outside_moveDraft hmove q hq).trans (houtside q hq)

/-! ## Images put into place -/

/-- The disk after a draft of an image was written and moved into place. -/
def withImage (s : FileStore) (d : Disk) (db : String) (f : Fragment) : Disk :=
  ⟨((d.nodes.insert (s.file db f.name "tmp") (.file (Image.ofFragment f))).insert (s.file db f.name "frag")
    (.file (Image.ofFragment f))).erase (s.file db f.name "tmp")⟩

theorem get_withImage (s : FileStore) (d : Disk) (db : String) (f : Fragment) (q : Path) :
    (s.withImage d db f).nodes[q]? = if s.file db f.name "tmp" = q then none
      else if s.file db f.name "frag" = q then some (.file (Image.ofFragment f)) else d.nodes[q]? := by
  unfold withImage
  rw [Disk.get_erase, Disk.get_insert, Disk.get_insert]
  split
  · rfl
  · rfl

section

variable (hdb : Name.check db = .ok ()) (hplace : d.node (s.place db) = .ok .directory)
  (hdraft : d.nodes[s.file db f.name "tmp"]? ≠ some .directory)

include hdb hplace

theorem writeDraft_eq (hname : Name.check f.name = .ok ()) :
    s.writeDraft d db f = lift (d.write (s.file db f.name "tmp") (Image.ofFragment f)) := by
  unfold writeDraft
  rw [databasePath_ok hdb, fragmentPath_ok hdb hname, Outcome.ok_bind, Disk.isDirectory_iff.2 hplace]
  rfl

omit hdb in
theorem node_drafted {n : Node} :
    (⟨d.nodes.insert (s.file db name "tmp") n⟩ : Disk).node (s.place db) = .ok .directory := by
  rw [((Disk.SameOutside.of_insert List.prefix_rfl).sameBut place_below_file.1 place_below_file.2).home, hplace]

include hdraft

theorem writeDraft_free (hname : Name.Fits ".tmp" f.name) :
    s.writeDraft d db f = .ok ⟨d.nodes.insert (s.file db f.name "tmp") (.file (Image.ofFragment f))⟩ := by
  have hshort := (fileName_short f.name "tmp").2 hname.short
  exact (writeDraft_eq hdb hplace hname.safe).trans (congrArg lift (Disk.write_entry hplace hshort hdraft _))

/-- In a directory in which nothing is in the way an image is put into its place. -/
theorem putFragment_free (hname : Name.Fits ".frag" f.name)
    (himage : d.nodes[s.file db f.name "frag"]? ≠ some .directory) :
    s.putFragment d db f = (.ok (), s.withImage d db f) := by
  have hsource := short_of_fits "tmp" hname (by decide)
  have htarget := short_of_fits "frag" hname (by decide)
  have hmove : s.moveDraft ⟨d.nodes.insert (s.file db f.name "tmp") (.file (Image.ofFragment f))⟩ db f.name =
      .ok (s.withImage d db f) := by
    unfold moveDraft
    rw [fragmentPath_ok hdb hname.safe, fragmentPath_ok hdb hname.safe]
    refine congrArg lift (Disk.rename_entry (node_drafted hplace) hsource htarget ?_ ?_ ?_)
    · exact fun hsame => draft_ne_image (congrArg (s.place db ++ [·]) hsame)
    · exact Disk.get_insert.trans (if_pos rfl)
    · refine fun hdirectory => himage ?_
      rw [← hdirectory]
      exact (Disk.get_insert.trans (if_neg draft_ne_image)).symm
  unfold FileStore.putFragment
  rw [writeDraft_free hdb hplace hdraft (fits_draft hname)]
  dsimp only
  rw [hmove]

/-- An image is refused if the name of its file is too long: at once if that of its draft is too, else when it is
moved. -/
theorem putFragment_tooLong (hname : Name.check f.name = .ok ()) (hlong : ¬Name.Fits ".frag" f.name) :
    ∃ d', s.putFragment d db f = (.error (.disk .nameTooLong), d') := by
  unfold FileStore.putFragment
  by_cases hfits : Name.Fits ".tmp" f.name
  · have hmove : s.moveDraft ⟨d.nodes.insert (s.file db f.name "tmp") (.file (Image.ofFragment f))⟩ db f.name =
        .error (.disk .nameTooLong) := by
      unfold moveDraft
      rw [fragmentPath_ok hdb hname, fragmentPath_ok hdb hname]
      have hsource := (fileName_short f.name "tmp").2 hfits.short
      have htarget := Nat.lt_of_not_le fun hshort => hlong ⟨hname, (fileName_short f.name "frag").1 hshort⟩
      exact congrArg lift
        (Disk.rename_tooLong (node_drafted hplace) hsource htarget (Disk.get_insert.trans (if_pos rfl)))
    rw [writeDraft_free hdb hplace hdraft hfits]
    dsimp only
    rw [hmove]
    exact ⟨_, rfl⟩
  · have hwrite : s.writeDraft d db f = .error (.disk .nameTooLong) := by
      have hdraftLong := Nat.lt_of_not_le fun hshort => hfits ⟨hname, (fileName_short f.name "tmp").1 hshort⟩
      exact (writeDraft_eq hdb hplace hname).trans (congrArg lift (Disk.write_tooLong hplace hdraftLong _))
    rw [hwrite]
    exact ⟨d, rfl⟩

end

theorem sameBut_withImage (s : FileStore) (d : Disk) (db : String) (f : Fragment) :
    Disk.SameBut s.root d (s.withImage d db f) := by
  intro q hq
  rw [get_withImage, if_neg, if_neg]
  · rintro rfl
    exact hq root_below_file
  · rintro rfl
    exact hq root_below_file

/-- An image that is in its place is read as the fragment that was put. -/
theorem getFragment_image (hdb : Name.check db = .ok ()) (hname : Name.Fits ".frag" name)
    (hplace : d.node (s.place db) = .ok .directory) (hfits : Image.Fits f)
    (himage : d.nodes[s.file db name "frag"]? = some (.file (Image.ofFragment f))) :
    s.getFragment d db name = .ok f := by
  have hread := Disk.read_file hplace (short_of_fits "frag" hname (by decide)) himage
  unfold getFragment
  rw [fragmentPath_ok hdb hname.safe, Outcome.ok_bind, file, hread, orElse, Outcome.ok_bind,
    Image.toFragment_ofFragment hfits]

/-! ## The mirror -/

/-- The directory holds what the memory holds. -/
structure Mirrors (s : FileStore) (d : Disk) (m : MemoryStore) : Prop where
  home : d.node s.root = .ok .directory
  databases : ∀ db, d.nodes[s.place db]? = if db ∈ m then some .directory else none
  images : ∀ db name, d.nodes[s.file db name "frag"]? =
    ((m.fragments db)[name]?).map fun f => .file (Image.ofFragment f)
  drafts : ∀ db name, d.nodes[s.file db name "tmp"]? = none
  fits : ∀ (db name : String) (f : Fragment), (m.fragments db)[name]? = some f → Image.Fits f

/-- Outcomes that fail alike, or succeed with a directory and a memory that mirror each other. -/
inductive Agree (s : FileStore) : Except Error Disk → Except Error MemoryStore → Prop
  | ok {d : Disk} {m : MemoryStore} (h : s.Mirrors d m) : Agree s (.ok d) (.ok m)
  | error (e : Error) : Agree s (.error e) (.error e)

namespace Mirrors

/-- An empty directory mirrors a memory without databases. -/
theorem empty (h : d.IsEmptyDirectory s.root) : s.Mirrors d ∅ where
  home := h.directory
  databases db := by simpa using h.bare _ root_below_place.1 root_below_place.2
  images db name := by
    rw [h.bare _ root_below_file.1 root_below_file.2, MemoryStore.fragments_absent Std.ExtTreeMap.not_mem_empty]
    rfl
  drafts db name := h.bare _ root_below_file.1 root_below_file.2
  fits db name f hf := by
    rw [MemoryStore.fragments_absent Std.ExtTreeMap.not_mem_empty] at hf
    cases hf

/-- The directory of a database that is there. -/
theorem directory (h : s.Mirrors d m) (hdb : Name.Fits "" db) (hm : db ∈ m) :
    d.node (s.place db) = .ok .directory := by
  have hplace := h.databases db
  rw [if_pos hm, place] at hplace
  rw [place, Disk.node_entry h.home hdb.entry, hplace]

/-! ## Databases -/

theorem putDatabase (h : s.Mirrors d m) (hdb : Name.Fits "" db) :
    s.Agree (s.putDatabase d db) (m.putDatabase db) := by
  obtain ⟨m', hput⟩ : ∃ m', m.putDatabase db = .ok m' := ⟨_, MemoryStore.putDatabase_eq_ok.2 ⟨hdb.safe, rfl⟩⟩
  have hfragments := MemoryStore.fragments_putDatabase hput
  have hplace := h.databases db
  have hfiles : s.putDatabase d db = FileStore.lift (d.addDirectory s.root db) := by
    unfold FileStore.putDatabase
    rw [hdb.safe]
    rfl
  rw [hput, hfiles]
  by_cases hm : db ∈ m
  · rw [if_pos hm] at hplace
    have hsame : m' = m := by rw [(MemoryStore.putDatabase_eq_ok.1 hput).2, if_pos hm]
    rw [Disk.addDirectory_present hdb.entry hplace, hsame]
    exact .ok h
  · rw [if_neg hm] at hplace
    have hadd : d.addDirectory s.root db = .ok ⟨d.nodes.insert (s.place db) .directory⟩ :=
      Disk.addDirectory_absent hdb.entry hplace
    rw [hadd]
    refine .ok ⟨?_, fun x => ?_, fun x name => ?_, fun x name => ?_, fun x name f hf => ?_⟩
    · rw [((Disk.SameOutside.of_insert List.prefix_rfl).sameBut root_below_place.1 root_below_place.2).home, h.home]
    · simp only [Disk.get_insert, place_inj, h.databases, MemoryStore.mem_putDatabase hput]
      by_cases hx : db = x <;> simp [hx]
    · rw [Disk.get_insert, if_neg place_ne_file, hfragments, h.images]
    · rw [Disk.get_insert, if_neg place_ne_file, h.drafts]
    · rw [hfragments] at hf
      exact h.fits x name f hf

theorem deleteDatabase (h : s.Mirrors d m) (hdb : Name.Fits "" db) :
    s.Agree (s.deleteDatabase d db) (m.deleteDatabase db) := by
  have hplace := h.databases db
  unfold FileStore.deleteDatabase
  rw [databasePath_ok hdb.safe, Outcome.ok_bind]
  by_cases hm : db ∈ m
  · obtain ⟨m', hdelete⟩ : ∃ m', m.deleteDatabase db = .ok m' :=
      ⟨_, MemoryStore.deleteDatabase_eq_ok.2 ⟨hm, rfl⟩⟩
    have hfragments := MemoryStore.fragments_deleteDatabase hdelete
    rw [if_pos hm] at hplace
    have hremove : d.removeDirectory (s.place db) =
        .ok ⟨d.nodes.filter fun q _ => !(s.place db).isPrefixOf q⟩ :=
      Disk.removeDirectory_present h.home hdb.entry hplace
    rw [hdelete, hremove]
    refine .ok ⟨?_, fun x => ?_, fun x name => ?_, fun x name => ?_, fun x name f hf => ?_⟩
    · rw [(Disk.SameOutside.of_filter.sameBut root_below_place.1 root_below_place.2).home, h.home]
    · simp only [Disk.get_filter, place_isPrefixOf_place, h.databases, MemoryStore.mem_deleteDatabase hdelete]
      by_cases hx : db = x <;> simp [hx]
    · simp only [Disk.get_filter, place_isPrefixOf_file, hfragments, h.images]
      by_cases hx : db = x <;> simp [hx]
    · rw [Disk.get_filter, h.drafts, ite_self]
    · rw [hfragments] at hf
      split at hf
      · cases hf
      · exact h.fits x name f hf
  · rw [if_neg hm] at hplace
    have hremove : d.removeDirectory (s.place db) = .error .notFound :=
      Disk.removeDirectory_absent h.home hdb.entry hplace
    rw [hremove, MemoryStore.deleteDatabase, if_neg hm]
    exact .error _

/-! ## Fragments -/

/-- What stands where the image of a fragment is to be, if anything, is a file. -/
theorem image_ne_directory (h : s.Mirrors d m) (db name : String) :
    d.nodes[s.file db name "frag"]? ≠ some .directory := by
  rw [h.images]
  cases (m.fragments db)[name]? <;> simp

/-- In a database that is there an image is put into its place. -/
theorem putFragment_present (h : s.Mirrors d m) (hdb : Name.Fits "" db) (hname : Name.Fits ".frag" f.name)
    (hm : db ∈ m) : s.putFragment d db f = (.ok (), s.withImage d db f) := by
  refine FileStore.putFragment_free hdb.safe (h.directory hdb hm) ?_ hname (h.image_ne_directory db f.name)
  rw [h.drafts]
  exact nofun

/-- A fragment cannot be put into a database that is missing. -/
theorem putFragment_absent (h : s.Mirrors d m) (hdb : Name.Fits "" db) (hm : db ∉ m) :
    s.putFragment d db f = (.error (.store (.databaseNotStored db)), d) := by
  have hplace := h.databases db
  rw [if_neg hm, place] at hplace
  have hdirectory : d.isDirectory (s.place db) = false := by
    unfold Disk.isDirectory place
    rw [Disk.node_entry h.home hdb.entry, hplace]
  have hwrite : s.writeDraft d db f = .error (.store (.databaseNotStored db)) := by
    unfold writeDraft
    rw [databasePath_ok hdb.safe, Outcome.ok_bind, hdirectory]
    rfl
  unfold FileStore.putFragment
  rw [hwrite]

theorem putFragment (h : s.Mirrors d m) (hdb : Name.Fits "" db) (hname : Name.Fits ".frag" f.name)
    (hf : Image.Fits f) :
    (∃ d' m', s.putFragment d db f = (.ok (), d') ∧ m.putFragment db f = .ok m' ∧ s.Mirrors d' m') ∨
    ∃ e, s.putFragment d db f = (.error e, d) ∧ m.putFragment db f = .error e := by
  by_cases hm : db ∈ m
  · obtain ⟨m', hput⟩ : ∃ m', m.putFragment db f = .ok m' :=
      ⟨_, MemoryStore.putFragment_eq_ok.2 ⟨hname.safe, hm, rfl⟩⟩
    have hfragments := MemoryStore.fragments_putFragment hput
    refine .inl ⟨_, m', h.putFragment_present hdb hname hm, hput,
      ?_, fun x => ?_, fun x name => ?_, fun x name => ?_, fun x name g hg => ?_⟩
    · rw [(s.sameBut_withImage d db f).home, h.home]
    · rw [get_withImage, if_neg place_ne_file.symm, if_neg place_ne_file.symm, h.databases]
      simp only [MemoryStore.mem_putFragment hput]
    · rw [get_withImage, if_neg draft_ne_image, h.images, hfragments]
      simp only [file_inj]
      by_cases hx : db = x
      · subst hx
        by_cases hn : f.name = name <;> simp [hn, Maps.get_insert]
      · simp [hx]
    · rw [get_withImage, if_neg draft_ne_image.symm, h.drafts, ite_self]
    · rw [hfragments] at hg
      split at hg
      · rename_i hx
        rw [Maps.get_insert] at hg
        split at hg
        · cases hg
          exact hf
        · exact h.fits db name g hg
      · exact h.fits x name g hg
  · refine .inr ⟨.store (.databaseNotStored db), h.putFragment_absent hdb hm, ?_⟩
    unfold MemoryStore.putFragment
    rw [hname.safe, Outcome.ok_bind, Std.ExtTreeMap.getElem?_eq_none hm]
    rfl

/-- What the image of a fragment is on the disk: a file in the directory of its database, or missing with or
without that directory. -/
theorem image_cases (h : s.Mirrors d m) (hdb : Name.Fits "" db) (hname : Name.Fits ".frag" name) :
    (∃ f, (m.fragments db)[name]? = some f ∧ Image.Fits f ∧ d.read (s.file db name "frag") = .ok (Image.ofFragment f) ∧
      d.remove (s.file db name "frag") = .ok ⟨d.nodes.erase (s.file db name "frag")⟩) ∨
    ((m.fragments db)[name]? = none ∧ d.read (s.file db name "frag") = .error .notFound ∧
      d.remove (s.file db name "frag") = .error .notFound) := by
  have himage := h.images db name
  have short := short_of_fits "frag" hname (by decide)
  by_cases hm : db ∈ m
  · have hplace := h.directory hdb hm
    cases hf : (m.fragments db)[name]? with
    | some f =>
      rw [hf] at himage
      exact .inl ⟨f, rfl, h.fits db name f hf, Disk.read_file hplace short himage, Disk.remove_file hplace short himage⟩
    | none =>
      rw [hf] at himage
      have hread := Disk.read_absent hplace short himage []
      have hremove := Disk.remove_absent hplace short himage []
      rw [List.append_nil] at hread hremove
      exact .inr ⟨rfl, hread, hremove⟩
  · have hplace := h.databases db
    rw [if_neg hm] at hplace
    have hnone : (m.fragments db)[name]? = none := by
      rw [MemoryStore.fragments_absent hm, Std.ExtTreeMap.getElem?_empty]
    exact .inr ⟨hnone, Disk.read_absent h.home hdb.entry hplace _, Disk.remove_absent h.home hdb.entry hplace _⟩

/-- An image reads as the fragment that was put. -/
theorem getFragment (h : s.Mirrors d m) (hdb : Name.Fits "" db) (hname : Name.Fits ".frag" name) :
    s.getFragment d db name = m.getFragment db name := by
  unfold FileStore.getFragment MemoryStore.getFragment
  rw [fragmentPath_ok hdb.safe hname.safe, Outcome.ok_bind]
  rcases h.image_cases hdb hname with ⟨f, hf, hfits, hread, -⟩ | ⟨hf, hread, -⟩
  · rw [hf, hread, orElse, Outcome.ok_bind, Image.toFragment_ofFragment hfits]
  · rw [hf, hread]
    rfl

theorem deleteFragment (h : s.Mirrors d m) (hdb : Name.Fits "" db) (hname : Name.Fits ".frag" name) :
    s.Agree (s.deleteFragment d db name) (m.deleteFragment db name) := by
  unfold FileStore.deleteFragment
  rw [fragmentPath_ok hdb.safe hname.safe, Outcome.ok_bind]
  rcases h.image_cases hdb hname with ⟨f, hf, -, -, hremove⟩ | ⟨hf, -, hremove⟩
  · obtain ⟨m', hdelete⟩ : ∃ m', m.deleteFragment db name = .ok m' :=
      ⟨_, MemoryStore.deleteFragment_eq_ok.2 ⟨Maps.mem_of_get hf, rfl⟩⟩
    have hfragments := MemoryStore.fragments_deleteFragment hdelete
    rw [hdelete, hremove]
    refine .ok ⟨?_, fun x => ?_, fun x y => ?_, fun x y => ?_, fun x y g hg => ?_⟩
    · rw [((Disk.SameOutside.of_erase List.prefix_rfl).sameBut root_below_file.1 root_below_file.2).home, h.home]
    · simp only [Disk.get_erase, if_neg place_ne_file.symm, h.databases, MemoryStore.mem_deleteFragment hdelete]
    · simp only [Disk.get_erase, file_inj, h.images, hfragments]
      by_cases hx : db = x
      · subst hx
        by_cases hn : name = y <;> simp [hn, Maps.get_erase]
      · simp [hx]
    · rw [Disk.get_erase, if_neg draft_ne_image.symm, h.drafts]
    · rw [hfragments] at hg
      split at hg
      · rename_i hx
        rw [Maps.get_erase] at hg
        split at hg
        · cases hg
        · exact h.fits db y g hg
      · exact h.fits x y g hg
  · have habsent : name ∉ m.fragments db := by
      intro hmem
      obtain ⟨g, hg⟩ := Maps.get_of_mem hmem
      rw [hf] at hg
      cases hg
    rw [hremove, MemoryStore.deleteFragment, if_neg habsent]
    exact .error _

end Mirrors

end FileStore

end FragmentEngine
