import FragmentEngine.Proofs.Outcome
import FragmentEngine.Store.Disk
/-!
# What disk operations change

A path is looked up through the directories on the way to it, so that an entry of a directory depends on nothing but
what the disk has under its path. An operation changes nothing but the paths that it is about.
-/

namespace FragmentEngine

/-! ## Nodes by path -/

namespace Disk

variable {d d' : Disk} {p q start : Path} {name : String} {bytes : Bytes} {e : DiskError} {n : Node}

theorem get_insert {m : Std.ExtTreeMap Path Node compare} {v : Node} :
    (m.insert p v)[q]? = if p = q then some v else m[q]? := by
  simp [Std.ExtTreeMap.getElem?_insert]

theorem get_erase {m : Std.ExtTreeMap Path Node compare} :
    (m.erase p)[q]? = if p = q then none else m[q]? := by
  simp [Std.ExtTreeMap.getElem?_erase]

theorem get_filter {m : Std.ExtTreeMap Path Node compare} {keep : Path → Bool} :
    (m.filter fun k _ => keep k)[q]? = if keep q then m[q]? else none := by
  rw [Std.ExtTreeMap.getElem?_filter']
  cases m[q]? <;> simp [Option.filter]

/-! ## Looking -/

theorem entry_short (short : name.utf8ByteSize ≤ nameLimit) : d.entry p name =
    match d.nodes[p ++ [name]]? with
    | some node => .ok node
    | none => .error .notFound :=
  if_neg (by omega)

/-- Below a directory a path is looked up from there. -/
theorem find_append (h : d.find start p = .ok .directory) (q : Path) :
    d.find start (p ++ q) = d.find (start ++ p) q := by
  induction p generalizing start with
  | nil => rw [List.nil_append, List.append_nil]
  | cons name rest ih =>
    obtain ⟨node, hnode, h⟩ := Outcome.bind_eq_ok.1 h
    rw [List.cons_append, find, hnode]
    cases node with
    | directory =>
      rw [List.append_cons start name rest]
      exact ih h
    | file bytes =>
      dsimp only at h
      split at h <;> cases h

theorem node_append (h : d.node p = .ok .directory) (name : String) : d.node (p ++ [name]) = d.entry p name := by
  unfold node
  rw [find_append h, List.nil_append, find]
  rcases d.entry p name with e | bytes | _ <;> rfl

/-- What is looked up behind a path is looked up in a directory. -/
theorem find_front (h : d.find start (p ++ q) = .ok n) (hq : q ≠ []) : d.find start p = .ok .directory := by
  induction p generalizing start with
  | nil => rfl
  | cons name rest ih =>
    obtain ⟨node, hnode, h⟩ := Outcome.bind_eq_ok.1 h
    rw [find, hnode]
    cases node with
    | directory => exact ih h
    | file bytes =>
      have hlong : (rest.append q).isEmpty = false := by simp [hq]
      dsimp only at h
      rw [hlong] at h
      cases h

theorem get_of_entry (h : d.entry p name = .ok n) : d.nodes[p ++ [name]]? = some n := by
  unfold entry at h
  split at h
  · cases h
  · split at h <;> cases h
    assumption

/-- What is found at a path below the top stands there. -/
theorem get_of_node (h : d.node p = .ok n) (hp : p ≠ []) : d.nodes[p]? = some n := by
  obtain ⟨front, name, rfl⟩ : ∃ front name, p = front ++ [name] :=
    ⟨p.dropLast, p.getLast hp, (List.dropLast_append_getLast hp).symm⟩
  have hfront : d.node front = .ok .directory := find_front h (by simp)
  rw [node_append hfront] at h
  exact get_of_entry h

theorem get_of_read (h : d.read p = .ok bytes) (hp : p ≠ []) : d.nodes[p]? = some (.file bytes) := by
  obtain ⟨n, hn, h⟩ := Outcome.bind_eq_ok.1 h
  cases n with
  | file b =>
    cases h
    exact get_of_node hn hp
  | directory => cases h

theorem isDirectory_iff : d.isDirectory p = true ↔ d.node p = .ok .directory := by
  unfold isDirectory
  rcases d.node p with e | bytes | _ <;> simp

theorem exists_iff : d.exists? p = true ↔ ∃ n, d.node p = .ok n := by
  unfold exists?
  cases d.node p <;> simp [Except.isOk, Except.toBool]

/-- A lookup reads nothing but the paths on its way. -/
theorem find_congr (h : ∀ k, k <+: p → d'.nodes[start ++ k]? = d.nodes[start ++ k]?) :
    d'.find start p = d.find start p := by
  induction p generalizing start with
  | nil => rfl
  | cons name rest ih =>
    have hentry : d'.entry start name = d.entry start name := by
      unfold entry
      rw [h [name] ⟨rest, rfl⟩]
    rw [find, find, hentry]
    cases d.entry start name with
    | error e => rfl
    | ok node =>
      cases node with
      | file bytes => rfl
      | directory =>
        refine ih fun k hk => ?_
        rw [List.append_assoc]
        exact h (name :: k) (List.cons_prefix_cons.2 ⟨rfl, hk⟩)

/-! ## Changes below a directory -/

/-- Two disks that differ in nothing but what stands below `p`. -/
def SameBut (p : Path) (d d' : Disk) : Prop := ∀ q, ¬(p <+: q ∧ q ≠ p) → d'.nodes[q]? = d.nodes[q]?

namespace SameBut

theorem refl (p : Path) (d : Disk) : SameBut p d d := fun _ _ => rfl

theorem trans {d'' : Disk} (h : SameBut p d d') (h' : SameBut p d' d'') : SameBut p d d'' :=
  fun q hq => (h' q hq).trans (h q hq)

/-- What does not stand below the directory is found as before. -/
theorem node (h : SameBut p d d') (hq : ¬(p <+: q ∧ q ≠ p)) : d'.node q = d.node q := by
  refine find_congr fun k hk => h k fun ⟨hpk, hne⟩ => hq ⟨hpk.trans hk, ?_⟩
  rintro rfl
  exact hne (hpk.eq_of_length (Nat.le_antisymm hpk.length_le hk.length_le)).symm

theorem home (h : SameBut p d d') : d'.node p = d.node p := h.node fun ⟨_, hne⟩ => hne rfl

end SameBut

/-- Two disks that differ in nothing but `p` and what stands below it. -/
def SameOutside (p : Path) (d d' : Disk) : Prop := ∀ q, ¬p <+: q → d'.nodes[q]? = d.nodes[q]?

namespace SameOutside

theorem of_insert {v : Node} (hpq : p <+: q) : SameOutside p d ⟨d.nodes.insert q v⟩ := by
  intro k hk
  rw [get_insert, if_neg]
  rintro rfl
  exact hk hpq

theorem of_erase (hpq : p <+: q) : SameOutside p d ⟨d.nodes.erase q⟩ := by
  intro k hk
  rw [get_erase, if_neg]
  rintro rfl
  exact hk hpq

theorem of_filter : SameOutside p d ⟨d.nodes.filter fun k _ => !p.isPrefixOf k⟩ := by
  intro k hk
  rw [get_filter, if_pos]
  rwa [Bool.not_eq_true', Bool.eq_false_iff, ne_eq, List.isPrefixOf_iff_prefix]

/-- A change of an entry of a directory is a change below the directory. -/
theorem sameBut (h : SameOutside q d d') (hpq : p <+: q) (hne : q ≠ p) : SameBut p d d' := by
  intro k hk
  refine h k fun hqk => hk ⟨hpq.trans hqk, ?_⟩
  rintro rfl
  exact hne (hqk.eq_of_length (Nat.le_antisymm hqk.length_le hpq.length_le))

end SameOutside

/-! ## Empty directories -/

/-- A directory with nothing in it. -/
structure IsEmptyDirectory (d : Disk) (p : Path) : Prop where
  directory : d.node p = .ok .directory
  bare : ∀ q, p <+: q → q ≠ p → d.nodes[q]? = none

/-- A disk has nothing in its working directory at first. -/
theorem isEmptyDirectory_working : empty.IsEmptyDirectory Path.working where
  directory := rfl
  bare q hq hne := by
    have hlong := hq.length_le
    unfold empty
    simp only [Std.ExtTreeMap.ofList_cons, Std.ExtTreeMap.insertMany_cons, Std.ExtTreeMap.insertMany_nil,
      get_insert]
    rw [if_neg hne.symm, if_neg, Std.ExtTreeMap.getElem?_empty]
    rintro rfl
    exact absurd hlong (by decide)

/-! ## Operations that succeed -/

theorem nodes_write (h : d.write p bytes = .ok d') : d'.nodes = d.nodes.insert p (.file bytes) := by
  obtain ⟨above, -, h⟩ := Outcome.bind_eq_ok.1 h
  cases above with
  | file b => cases h
  | directory =>
    dsimp only at h
    split at h <;> cases h
    · rfl
    · rfl

theorem nodes_rename (h : d.rename p q = .ok d') :
    ∃ bytes, d.read p = .ok bytes ∧ d'.nodes = if p = q then d.nodes.insert q (.file bytes)
      else (d.nodes.insert q (.file bytes)).erase p := by
  obtain ⟨bytes, hread, h⟩ := Outcome.bind_eq_ok.1 h
  obtain ⟨written, hwrite, h⟩ := Outcome.bind_eq_ok.1 h
  cases h
  refine ⟨bytes, hread, ?_⟩
  split <;> rw [nodes_write hwrite]

theorem nodes_remove (h : d.remove p = .ok d') : d'.nodes = d.nodes.erase p := by
  obtain ⟨⟨⟩, -, h⟩ := Outcome.bind_eq_ok.1 h
  cases h
  rfl

theorem nodes_addDirectory (h : d.addDirectory p name = .ok d') :
    d' = d ∨ d'.nodes = d.nodes.insert (p ++ [name]) .directory := by
  unfold addDirectory at h
  split at h <;> cases h
  · exact .inl rfl
  · exact .inr rfl

theorem nodes_removeDirectory (h : d.removeDirectory p = .ok d') :
    d'.nodes = d.nodes.filter fun q _ => !p.isPrefixOf q := by
  obtain ⟨node, -, h⟩ := Outcome.bind_eq_ok.1 h
  cases node with
  | file bytes => cases h
  | directory => cases h; rfl

/-! ## Entries of a directory

The paths here stand in a directory and end in a name that is not too long. -/

section

variable (hp : d.node p = .ok .directory) (short : name.utf8ByteSize ≤ nameLimit)

include hp short

theorem node_entry : d.node (p ++ [name]) =
    match d.nodes[p ++ [name]]? with
    | some node => .ok node
    | none => .error .notFound := by
  rw [node_append hp, entry_short short]

theorem read_file (h : d.nodes[p ++ [name]]? = some (.file bytes)) : d.read (p ++ [name]) = .ok bytes := by
  unfold read
  rw [node_entry hp short, h]
  rfl

/-- Behind a missing entry everything is missing. -/
theorem read_absent (h : d.nodes[p ++ [name]]? = none) (rest : Path) :
    d.read (p ++ [name] ++ rest) = .error .notFound := by
  have hmissing : d.node (p ++ [name] ++ rest) = .error .notFound := by
    unfold node
    rw [List.append_assoc, find_append hp, List.nil_append, List.singleton_append, find, entry_short short, h]
    rfl
  unfold read
  rw [hmissing]
  rfl

theorem write_entry (h : d.nodes[p ++ [name]]? ≠ some .directory) (bytes : Bytes) :
    d.write (p ++ [name]) bytes = .ok ⟨d.nodes.insert (p ++ [name]) (.file bytes)⟩ := by
  unfold write
  rw [List.dropLast_concat, hp, node_entry hp short]
  rcases hd : d.nodes[p ++ [name]]? with _ | b | _
  · rfl
  · rfl
  · exact absurd hd h

theorem remove_file (h : d.nodes[p ++ [name]]? = some (.file bytes)) :
    d.remove (p ++ [name]) = .ok ⟨d.nodes.erase (p ++ [name])⟩ := by
  unfold remove
  rw [read_file hp short h]
  rfl

theorem remove_absent (h : d.nodes[p ++ [name]]? = none) (rest : Path) :
    d.remove (p ++ [name] ++ rest) = .error .notFound := by
  unfold remove
  rw [read_absent hp short h]
  rfl

omit hp in
theorem addDirectory_present (h : d.nodes[p ++ [name]]? = some .directory) : d.addDirectory p name = .ok d := by
  unfold addDirectory
  rw [entry_short short, h]

omit hp in
theorem addDirectory_absent (h : d.nodes[p ++ [name]]? = none) :
    d.addDirectory p name = .ok ⟨d.nodes.insert (p ++ [name]) .directory⟩ := by
  unfold addDirectory
  rw [entry_short short, h]

theorem removeDirectory_present (h : d.nodes[p ++ [name]]? = some .directory) :
    d.removeDirectory (p ++ [name]) = .ok ⟨d.nodes.filter fun q _ => !(p ++ [name]).isPrefixOf q⟩ := by
  unfold removeDirectory
  rw [node_entry hp short, h]
  rfl

theorem removeDirectory_absent (h : d.nodes[p ++ [name]]? = none) :
    d.removeDirectory (p ++ [name]) = .error .notFound := by
  unfold removeDirectory
  rw [node_entry hp short, h]
  rfl

end

theorem write_tooLong (hp : d.node p = .ok .directory) (hlong : nameLimit < name.utf8ByteSize) (bytes : Bytes) :
    d.write (p ++ [name]) bytes = .error .nameTooLong := by
  unfold write
  rw [List.dropLast_concat, hp, node_append hp, entry, if_pos hlong]
  rfl

/-- A file moves in place of another entry of its directory that is no directory. -/
theorem rename_entry {source target : String} (hp : d.node p = .ok .directory)
    (hsource : source.utf8ByteSize ≤ nameLimit) (htarget : target.utf8ByteSize ≤ nameLimit) (hne : source ≠ target)
    (hfile : d.nodes[p ++ [source]]? = some (.file bytes)) (hfree : d.nodes[p ++ [target]]? ≠ some .directory) :
    d.rename (p ++ [source]) (p ++ [target]) =
      .ok ⟨(d.nodes.insert (p ++ [target]) (.file bytes)).erase (p ++ [source])⟩ := by
  unfold rename
  rw [read_file hp hsource hfile]
  show (d.write (p ++ [target]) bytes >>= _) = _
  rw [write_entry hp htarget hfree]
  show Except.ok (if p ++ [source] = p ++ [target] then _ else _) = _
  rw [if_neg (by simpa using hne)]

theorem rename_tooLong {source target : String} (hp : d.node p = .ok .directory)
    (hsource : source.utf8ByteSize ≤ nameLimit) (htarget : nameLimit < target.utf8ByteSize)
    (hfile : d.nodes[p ++ [source]]? = some (.file bytes)) :
    d.rename (p ++ [source]) (p ++ [target]) = .error .nameTooLong := by
  unfold rename
  rw [read_file hp hsource hfile]
  show (d.write (p ++ [target]) bytes >>= _) = _
  rw [write_tooLong hp htarget]
  rfl

end Disk

end FragmentEngine
