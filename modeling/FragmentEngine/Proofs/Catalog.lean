import Mathlib.Algebra.BigOperators.Group.List.Basic
import Mathlib.Algebra.GroupWithZero.Nat
import FragmentEngine.Catalog.Basic
import FragmentEngine.Proofs.Maps
import FragmentEngine.Proofs.Outcome
import FragmentEngine.Store.Name
/-!
# Coherent catalogs

A catalog says everything twice: each database lists and counts fragments that have entries of their own, filed
under one joined key. In a coherent catalog both say the same. Every operation keeps it so, and taking back an
addition restores the catalog as it was.
-/

namespace FragmentEngine

namespace Name

/-- A name without the dot that joins a database and a fragment. -/
def Plain (name : String) : Prop := '.' ∉ name.toList

theorem check_eq_ok {name : String} : check name = .ok () ↔ name ≠ "" ∧ ∀ c ∈ name.toList, isNameChar c = true := by
  unfold check
  by_cases hempty : name = ""
  · simp [hempty]
  · rw [if_neg (by simpa using hempty), ← List.all_eq_true]
    split <;> simp [*]

theorem isNameChar_of_check {name : String} (h : check name = .ok ()) : ∀ c ∈ name.toList, isNameChar c = true :=
  (check_eq_ok.1 h).2

theorem plain_of_check {name : String} (h : check name = .ok ()) : Plain name :=
  fun hdot => absurd (isNameChar_of_check h _ hdot) (by decide)

end Name

namespace Catalog

variable {c c' : Catalog} {db name : String} {d : DatabaseEntry} {f : FragmentEntry}

/-! ## Keys -/

theorem toList_key (db name : String) : (key db name).toList = db.toList ++ '.' :: name.toList := by
  simp [key, toString]

theorem key_ne_empty (db name : String) : key db name ≠ "" := by
  intro h
  have hchars := toList_key db name
  rw [h] at hchars
  simp at hchars

theorem key_right_injective {name' : String} (h : key db name = key db name') : name = name' := by
  have h := congrArg String.toList h
  rw [toList_key, toList_key] at h
  exact String.toList_inj.1 (List.cons.inj (List.append_cancel_left h)).2

/-- A key leads back to its database and name if the database is plain, whatever the name is. -/
theorem key_injective {db' name' : String} (hp : Name.Plain db) (hp' : Name.Plain db')
    (h : key db name = key db' name') : db = db' ∧ name = name' := by
  have hdb : db = db' := by
    have h := congrArg String.toList h
    rw [toList_key, toList_key, List.append_eq_append_iff] at h
    -- The longer of the two databases would hold the dot that ends the other.
    rcases h with ⟨_ | ⟨x, rest⟩, hdb, htail⟩ | ⟨_ | ⟨x, rest⟩, hdb, htail⟩
    · exact (String.toList_inj.1 (by simpa using hdb)).symm
    · obtain ⟨rfl, -⟩ := List.cons.inj htail
      exact absurd (by simp [hdb]) hp'
    · exact String.toList_inj.1 (by simpa using hdb)
    · obtain ⟨rfl, -⟩ := List.cons.inj htail
      exact absurd (by simp [hdb]) hp
  subst hdb
  exact ⟨rfl, key_right_injective h⟩

theorem key_eq_iff {db' name' : String} (hp : Name.Plain db) (hp' : Name.Plain db') :
    key db name = key db' name' ↔ db = db' ∧ name = name' := by
  refine ⟨key_injective hp hp', ?_⟩
  rintro ⟨rfl, rfl⟩
  rfl

/-! ## What each operation does -/

theorem database_eq_ok : c.database name = .ok d ↔ c.databases[name]? = some d := by
  unfold database
  split <;> simp_all

theorem addDatabase_eq_ok : c.addDatabase name = .ok (d, c') ↔
    name ∉ c.databases ∧ d = .empty name ∧
      c' = { c with databases := c.databases.insert name (.empty name) } := by
  unfold addDatabase
  split
  · simp_all
  · simp_all [eq_comm]

theorem fragment_eq_ok : c.fragment db name = .ok f ↔
    db ∈ c.databases ∧ c.fragments[key db name]? = some f := by
  by_cases hd : db ∈ c.databases
  · cases hf : c.fragments[key db name]? <;>
      simp [fragment, database, hf, hd, bind, Except.bind, Functor.discard, Functor.mapConst, Except.map, pure,
        Except.pure, throw, throwThe, MonadExceptOf.throw]
  · simp [fragment, database, hd, bind, Except.bind, Functor.discard, Functor.mapConst, Except.map]

theorem fragment_absent (hdb : db ∈ c.databases) (hnew : key db name ∉ c.fragments) :
    c.fragment db name = .error (.catalog (.fragmentNotFound (key db name))) := by
  obtain ⟨d, hd⟩ : ∃ d, c.databases[db]? = some d := Maps.get_of_mem hdb
  unfold fragment
  rw [database_eq_ok.2 hd, Std.ExtTreeMap.getElem?_eq_none hnew]
  rfl

theorem getElem?_foldl_erase (db : String) (names : List String) (fs : Std.ExtTreeMap String FragmentEntry compare)
    (k : String) : (names.foldl (fun fs f => fs.erase (key db f)) fs)[k]? =
      if k ∈ names.map (key db) then none else fs[k]? := by
  induction names generalizing fs with
  | nil => simp
  | cons name rest ih =>
    rw [List.foldl_cons, ih, Maps.get_erase]
    by_cases hk : k = key db name
    · simp [hk]
    · simp [hk, Ne.symm hk]

theorem removeDatabase_eq_ok : c.removeDatabase name = .ok (d, c') ↔ c.databases[name]? = some d ∧
    c' = ⟨c.databases.erase name, d.fragments.foldl (fun fs f => fs.erase (key name f)) c.fragments⟩ := by
  unfold removeDatabase
  rw [Outcome.bind_eq_ok]
  constructor
  · rintro ⟨d', hd', h⟩
    cases h
    exact ⟨database_eq_ok.1 hd', rfl⟩
  · rintro ⟨hd, rfl⟩
    exact ⟨d, database_eq_ok.2 hd, rfl⟩

/-- A database that is found can be removed. -/
theorem removeDatabase_found (h : c.database name = .ok d) : ∃ c', c.removeDatabase name = .ok (d, c') :=
  ⟨_, removeDatabase_eq_ok.2 ⟨database_eq_ok.1 h, rfl⟩⟩

theorem addFragment_eq_ok : c.addFragment f = .ok c' ↔ key f.db f.name ∉ c.fragments ∧
    ∃ d, c.databases[f.db]? = some d ∧
      c' = ⟨c.databases.insert f.db
          ⟨d.name, d.fragments ++ [f.name], d.rowCount + f.rowCount, d.size + f.size⟩,
        c.fragments.insert (key f.db f.name) f⟩ := by
  unfold addFragment
  simp only
  split
  · simp_all
  · rename_i hk
    rw [Outcome.bind_eq_ok]
    constructor
    · rintro ⟨d, hd, h⟩
      cases h
      exact ⟨hk, d, database_eq_ok.1 hd, rfl⟩
    · rintro ⟨-, d, hd, rfl⟩
      exact ⟨d, database_eq_ok.2 hd, rfl⟩

theorem removeFragment_eq_ok (hd : c.databases[db]? = some d) : c.removeFragment db name = .ok (f, c') ↔
    c.fragments[key db name]? = some f ∧
      c' = ⟨c.databases.insert db
          ⟨d.name, d.fragments.filter (· ≠ name), d.rowCount - f.rowCount, d.size - f.size⟩,
        c.fragments.erase (key db name)⟩ := by
  unfold removeFragment
  cases hf : c.fragments[key db name]? with
  | none => simp
  | some g =>
    simp only [hd, Except.ok.injEq, Prod.mk.injEq, Option.some.injEq]
    constructor
    · rintro ⟨rfl, rfl⟩
      exact ⟨rfl, rfl⟩
    · rintro ⟨rfl, rfl⟩
      exact ⟨rfl, rfl⟩

/-- A fragment that is found can be removed. -/
theorem removeFragment_found (h : c.fragment db name = .ok f) : ∃ c', c.removeFragment db name = .ok (f, c') := by
  obtain ⟨hdb, hf⟩ := fragment_eq_ok.1 h
  exact ⟨_, (removeFragment_eq_ok (Std.ExtTreeMap.getElem?_eq_some_getElem hdb)).2 ⟨hf, rfl⟩⟩

/-! ## What is there afterwards -/

theorem mem_addDatabase (h : c.addDatabase name = .ok (d, c')) (x : String) :
    x ∈ c'.databases ↔ name = x ∨ x ∈ c.databases := by
  obtain ⟨-, -, rfl⟩ := addDatabase_eq_ok.1 h
  exact Maps.mem_insert

theorem fragments_addDatabase (h : c.addDatabase name = .ok (d, c')) : c'.fragments = c.fragments := by
  obtain ⟨-, -, rfl⟩ := addDatabase_eq_ok.1 h
  rfl

theorem mem_removeDatabase (h : c.removeDatabase name = .ok (d, c')) (x : String) :
    x ∈ c'.databases ↔ name ≠ x ∧ x ∈ c.databases := by
  obtain ⟨-, rfl⟩ := removeDatabase_eq_ok.1 h
  exact Maps.mem_erase

theorem get_removeDatabase (h : c.removeDatabase name = .ok (d, c')) (hp : Name.Plain name) {x : String}
    (hx : Name.Plain x) (hne : name ≠ x) (n : String) : c'.fragments[key x n]? = c.fragments[key x n]? := by
  obtain ⟨-, rfl⟩ := removeDatabase_eq_ok.1 h
  rw [getElem?_foldl_erase, if_neg]
  intro hmem
  obtain ⟨n', -, hkey⟩ := List.mem_map.1 hmem
  exact hne (key_injective hp hx hkey).1

theorem mem_addFragment (h : c.addFragment f = .ok c') (x : String) : x ∈ c'.databases ↔ x ∈ c.databases := by
  obtain ⟨-, d, hd, rfl⟩ := addFragment_eq_ok.1 h
  exact Maps.mem_replace (Maps.mem_of_get hd)

theorem get_addFragment (h : c.addFragment f = .ok c') (hp : Name.Plain f.db) {x : String} (hx : Name.Plain x)
    (n : String) : c'.fragments[key x n]? = if f.db = x ∧ f.name = n then some f else c.fragments[key x n]? := by
  obtain ⟨-, d, -, rfl⟩ := addFragment_eq_ok.1 h
  simp only [Maps.get_insert, key_eq_iff hp hx]

/-- A removed fragment was there, whether or not its database is. -/
theorem removeFragment_effect (h : c.removeFragment db name = .ok (f, c')) :
    c.fragments[key db name]? = some f ∧ c'.fragments = c.fragments.erase (key db name) ∧
      ∀ x, x ∈ c'.databases ↔ x ∈ c.databases := by
  cases hd : c.databases[db]? with
  | none =>
    unfold removeFragment at h
    cases hf : c.fragments[key db name]? with
    | none => simp [hf] at h
    | some g =>
      simp only [hf, hd, Except.ok.injEq, Prod.mk.injEq] at h
      obtain ⟨rfl, rfl⟩ := h
      exact ⟨rfl, rfl, fun x => Iff.rfl⟩
  | some d =>
    obtain ⟨hf, rfl⟩ := (removeFragment_eq_ok hd).1 h
    exact ⟨hf, rfl, fun x => Maps.mem_replace (Maps.mem_of_get hd)⟩

theorem get_removeFragment (h : c.removeFragment db name = .ok (f, c')) (hp : Name.Plain db) {x : String}
    (hx : Name.Plain x) (n : String) :
    c'.fragments[key x n]? = if db = x ∧ name = n then none else c.fragments[key x n]? := by
  rw [(removeFragment_effect h).2.1]
  simp only [Maps.get_erase, key_eq_iff hp hx]

/-! ## Taking back an addition -/

/-- Every fragment that a database lists has an entry. -/
def Listed (c : Catalog) : Prop :=
  ∀ db d, c.databases[db]? = some d → ∀ name ∈ d.fragments, key db name ∈ c.fragments

/-- A database that is added and removed leaves no trace. -/
theorem removeDatabase_addDatabase (h : c.addDatabase name = .ok (d, c')) :
    c'.removeDatabase name = .ok (d, c) := by
  obtain ⟨hnew, rfl, rfl⟩ := addDatabase_eq_ok.1 h
  exact removeDatabase_eq_ok.2 ⟨by simp, by simp [DatabaseEntry.empty, Maps.erase_insert_new hnew]⟩

/-- A fragment that is added and removed leaves no trace: it is the last on its list, and was not on it before. -/
theorem removeFragment_addFragment (hl : c.Listed) (h : c.addFragment f = .ok c') :
    c'.removeFragment f.db f.name = .ok (f, c) := by
  obtain ⟨hnew, d, hd, rfl⟩ := addFragment_eq_ok.1 h
  have hlist : (d.fragments ++ [f.name]).filter (· ≠ f.name) = d.fragments := by
    have hold : d.fragments.filter (· ≠ f.name) = d.fragments :=
      List.filter_eq_self.2 fun x hx => by simpa using fun e : x = f.name => hnew (hl f.db d hd _ (e ▸ hx))
    rw [List.filter_append, hold]
    simp
  refine (removeFragment_eq_ok Std.ExtTreeMap.getElem?_insert_self).2 ⟨by simp, ?_⟩
  rw [hlist, Nat.add_sub_cancel, Nat.add_sub_cancel, Maps.insert_insert_old hd, Maps.erase_insert_new hnew]

/-! ## Coherence -/

/-- The entries of a database's fragments, in the order of a list of their names. -/
def entries (fs : Std.ExtTreeMap String FragmentEntry compare) (db : String) (names : List String) :
    List FragmentEntry :=
  names.filterMap fun name => fs[key db name]?

/-- What a database lists and counts is what has been entered for it. -/
structure Accounts (d : DatabaseEntry) (fs : Std.ExtTreeMap String FragmentEntry compare) (db : String) :
    Prop where
  named : d.name = db
  nodup : d.fragments.Nodup
  listed : ∀ name, name ∈ d.fragments ↔ key db name ∈ fs
  rowCount : d.rowCount = ((entries fs db d.fragments).map (·.rowCount)).sum
  size : d.size = ((entries fs db d.fragments).map (·.size)).sum

/-- Names are plain, every database accounts for its fragments, and every fragment is filed under its own key and
belongs to a database. -/
structure Coherent (c : Catalog) : Prop where
  plain : ∀ db ∈ c.databases, Name.Plain db
  filed : ∀ k f, c.fragments[k]? = some f → k = key f.db f.name ∧ f.db ∈ c.databases
  accounts : ∀ db d, c.databases[db]? = some d → Accounts d c.fragments db

variable {fs fs' : Std.ExtTreeMap String FragmentEntry compare}

theorem entries_congr {names : List String} (h : ∀ n ∈ names, fs'[key db n]? = fs[key db n]?) :
    entries fs' db names = entries fs db names :=
  List.filterMap_congr h

theorem Accounts.empty (hnone : ∀ n, key db n ∉ fs) : Accounts (.empty db) fs db :=
  ⟨rfl, List.nodup_nil, fun n => by simpa [DatabaseEntry.empty] using hnone n, rfl, rfl⟩

/-- Entries of other databases do not matter. -/
theorem Accounts.congr (h : Accounts d fs db) (hfs : ∀ n, fs'[key db n]? = fs[key db n]?) :
    Accounts d fs' db where
  named := h.named
  nodup := h.nodup
  listed n := by
    rw [h.listed]
    exact Maps.mem_congr (by rw [hfs])
  rowCount := by rw [h.rowCount, entries_congr fun n _ => hfs n]
  size := by rw [h.size, entries_congr fun n _ => hfs n]

theorem Accounts.add (h : Accounts d fs db) (hnew : key db f.name ∉ fs) :
    Accounts ⟨d.name, d.fragments ++ [f.name], d.rowCount + f.rowCount, d.size + f.size⟩
      (fs.insert (key db f.name) f) db := by
  have hfresh : f.name ∉ d.fragments := fun hmem => hnew ((h.listed _).1 hmem)
  have hentries : entries (fs.insert (key db f.name) f) db (d.fragments ++ [f.name]) =
      entries fs db d.fragments ++ [f] := by
    unfold entries
    rw [List.filterMap_append]
    congr 1
    · refine List.filterMap_congr fun n hn => ?_
      have hk : key db f.name ≠ key db n := fun e => hfresh (key_right_injective e ▸ hn)
      rw [Maps.get_insert, if_neg hk]
    · simp
  refine ⟨h.named, ?_, fun n => ?_, ?_, ?_⟩
  · refine List.nodup_append.2 ⟨h.nodup, by simp, fun x hx y hy e => hfresh ?_⟩
    rwa [← List.mem_singleton.1 hy, ← e]
  · rw [List.mem_append, List.mem_singleton, h.listed, Maps.mem_insert]
    constructor
    · rintro (hn | rfl)
      · exact .inr hn
      · exact .inl rfl
    · rintro (hk | hn)
      · exact .inr (key_right_injective hk).symm
      · exact .inl hn
  · simp [hentries, h.rowCount]
  · simp [hentries, h.size]

/-- The sum over a list without one of its names is less by what the name contributes. -/
theorem sum_entries_filter (w : FragmentEntry → Nat) {names : List String} (hnd : names.Nodup)
    (hmem : name ∈ names) (hf : fs[key db name]? = some f) :
    ((entries fs db names).map w).sum = w f + ((entries fs db (names.filter (· ≠ name))).map w).sum := by
  -- The name occurs once, so it can be moved to the front.
  have hperm : names.Perm (name :: names.filter (· ≠ name)) := by
    have hperm := List.perm_cons_erase hmem
    rw [hnd.erase_eq_filter] at hperm
    exact hperm.trans (.of_eq (by simp [bne, beq_eq_decide]))
  rw [entries, ((hperm.filterMap _).map w).sum_eq]
  simp [entries, hf]

theorem Accounts.remove (h : Accounts d fs db) (hf : fs[key db name]? = some f) :
    Accounts ⟨d.name, d.fragments.filter (· ≠ name), d.rowCount - f.rowCount, d.size - f.size⟩
      (fs.erase (key db name)) db := by
  have hmem : name ∈ d.fragments := (h.listed _).2 (Maps.mem_of_get hf)
  have hentries : entries (fs.erase (key db name)) db (d.fragments.filter (· ≠ name)) =
      entries fs db (d.fragments.filter (· ≠ name)) := by
    refine entries_congr fun n hn => ?_
    have hne : n ≠ name := of_decide_eq_true (List.mem_filter.1 hn).2
    have hk : key db name ≠ key db n := fun e => hne (key_right_injective e).symm
    rw [Maps.get_erase, if_neg hk]
  refine ⟨h.named, h.nodup.filter _, fun n => ?_, ?_, ?_⟩
  · rw [List.mem_filter, h.listed, Maps.mem_erase]
    by_cases hn : n = name
    · simp [hn]
    · have hk : key db name ≠ key db n := fun e => hn (key_right_injective e).symm
      simp [hn, hk]
  · simp only [hentries]
    rw [h.rowCount, sum_entries_filter _ h.nodup hmem hf, Nat.add_sub_cancel_left]
  · simp only [hentries]
    rw [h.size, sum_entries_filter _ h.nodup hmem hf, Nat.add_sub_cancel_left]

/-! ## Operations keep coherence -/

namespace Coherent

theorem empty : Coherent .empty where
  plain db h := by simp [Catalog.empty] at h
  filed k f h := by simp [Catalog.empty] at h
  accounts db d h := by simp [Catalog.empty] at h

theorem isListed (h : Coherent c) : c.Listed :=
  fun db d hd name hmem => ((h.accounts db d hd).listed name).1 hmem

/-- What is found under a key is the fragment that the key names, and its database is there. -/
theorem entry (h : Coherent c) (hp : Name.Plain db) (hf : c.fragments[key db name]? = some f) :
    f.db = db ∧ f.name = name ∧ db ∈ c.databases := by
  obtain ⟨hkey, hfdb⟩ := h.filed _ f hf
  obtain ⟨rfl, rfl⟩ := key_injective hp (h.plain _ hfdb) hkey
  exact ⟨rfl, rfl, hfdb⟩

/-- A database that is not there has no fragments. -/
theorem no_fragment (h : Coherent c) (hp : Name.Plain db) (hdb : db ∉ c.databases) (name : String) :
    key db name ∉ c.fragments := by
  intro hmem
  obtain ⟨f, hf⟩ := Maps.get_of_mem hmem
  exact hdb (h.entry hp hf).2.2

theorem addDatabase (h : Coherent c) (hp : Name.Plain name) (hc : c.addDatabase name = .ok (d, c')) :
    Coherent c' := by
  have hmem := mem_addDatabase hc
  obtain ⟨hnew, -, rfl⟩ := addDatabase_eq_ok.1 hc
  refine ⟨fun db hdb => ?_, fun k f hf => ?_, fun db d hd => ?_⟩
  · rcases (hmem db).1 hdb with rfl | hdb
    · exact hp
    · exact h.plain db hdb
  · obtain ⟨hkey, hfdb⟩ := h.filed k f hf
    exact ⟨hkey, (hmem f.db).2 (.inr hfdb)⟩
  · rw [Maps.get_insert] at hd
    split at hd
    · rename_i he
      subst he
      cases hd
      exact .empty (h.no_fragment hp hnew)
    · exact h.accounts db d hd

theorem removeDatabase (h : Coherent c) (hc : c.removeDatabase name = .ok (d, c')) : Coherent c' := by
  have hmem := mem_removeDatabase hc
  obtain ⟨hd, rfl⟩ := removeDatabase_eq_ok.1 hc
  have hp := h.plain name (Maps.mem_of_get hd)
  refine ⟨fun db hdb => h.plain db ((hmem db).1 hdb).2, fun k f hf => ?_, fun db d' hd' => ?_⟩
  · rw [getElem?_foldl_erase] at hf
    split at hf
    · cases hf
    · rename_i hk
      obtain ⟨rfl, hfdb⟩ := h.filed k f hf
      refine ⟨rfl, (hmem f.db).2 ⟨?_, hfdb⟩⟩
      -- An entry of the removed database would have been on its list.
      rintro rfl
      exact hk (List.mem_map.2 ⟨f.name, ((h.accounts _ d hd).listed _).2 (Maps.mem_of_get hf), rfl⟩)
  · obtain ⟨hne, hdb⟩ := (hmem db).1 (Maps.mem_of_get hd')
    rw [Maps.get_erase, if_neg hne] at hd'
    exact (h.accounts db d' hd').congr (get_removeDatabase hc hp (h.plain db hdb) hne)

/-- A database may be changed together with its own fragments. -/
theorem update (h : Coherent c) (hdb : db ∈ c.databases) (hd : Accounts d fs db)
    (hframe : ∀ db' name, Name.Plain db' → db ≠ db' → fs[key db' name]? = c.fragments[key db' name]?)
    (hfiled : ∀ k f, fs[k]? = some f → k = key f.db f.name ∧ f.db ∈ c.databases) :
    Coherent ⟨c.databases.insert db d, fs⟩ := by
  refine ⟨fun db' hdb' => h.plain db' ((Maps.mem_replace hdb).1 hdb'), fun k f hf => ?_, fun db' d' hd' => ?_⟩
  · obtain ⟨hkey, hfdb⟩ := hfiled k f hf
    exact ⟨hkey, (Maps.mem_replace hdb).2 hfdb⟩
  · rw [Maps.get_insert] at hd'
    split at hd'
    · rename_i he
      subst he
      cases hd'
      exact hd
    · rename_i hne
      exact (h.accounts db' d' hd').congr fun n => hframe db' n (h.plain db' (Maps.mem_of_get hd')) hne

theorem addFragment (h : Coherent c) (hc : c.addFragment f = .ok c') : Coherent c' := by
  obtain ⟨hnew, d, hd, rfl⟩ := addFragment_eq_ok.1 hc
  have hdb := Maps.mem_of_get hd
  refine h.update hdb ((h.accounts _ d hd).add hnew) (fun db name hp hne => ?_) fun k g hg => ?_
  · rw [get_addFragment hc (h.plain _ hdb) hp name, if_neg fun e => hne e.1]
  · rw [Maps.get_insert] at hg
    split at hg
    · rename_i he
      cases hg
      exact ⟨he.symm, hdb⟩
    · exact h.filed k g hg

theorem removeFragment (h : Coherent c) (hp : Name.Plain db) (hc : c.removeFragment db name = .ok (f, c')) :
    Coherent c' := by
  have hf := (removeFragment_effect hc).1
  -- A removal without the database would leave an entry that no list accounts for.
  have hdb := (h.entry hp hf).2.2
  obtain ⟨d, hd⟩ := Maps.get_of_mem hdb
  obtain ⟨-, rfl⟩ := (removeFragment_eq_ok hd).1 hc
  refine h.update hdb ((h.accounts _ d hd).remove hf) (fun db name hp' hne => ?_) fun k g hg => ?_
  · rw [get_removeFragment hc hp hp' name, if_neg fun e => hne e.1]
  · rw [Maps.get_erase] at hg
    split at hg
    · cases hg
    · exact h.filed k g hg

end Coherent

/-! ## Which fragments a catalog has -/

/-- Whether a fragment is found. -/
def Has (c : Catalog) (db name : String) : Prop := db ∈ c.databases ∧ key db name ∈ c.fragments

theorem has_iff : c.Has db name ↔ ∃ f, c.fragment db name = .ok f := by
  constructor
  · rintro ⟨hdb, hk⟩
    obtain ⟨f, hf⟩ := Maps.get_of_mem hk
    exact ⟨f, fragment_eq_ok.2 ⟨hdb, hf⟩⟩
  · rintro ⟨f, hf⟩
    obtain ⟨hdb, hf⟩ := fragment_eq_ok.1 hf
    exact ⟨hdb, Maps.mem_of_get hf⟩

theorem has_addDatabase (h : Coherent c) (hp : Name.Plain name) (hc : c.addDatabase name = .ok (d, c'))
    (x n : String) : c'.Has x n ↔ c.Has x n := by
  unfold Has
  rw [mem_addDatabase hc, fragments_addDatabase hc]
  refine ⟨?_, fun ⟨hx, hk⟩ => ⟨.inr hx, hk⟩⟩
  rintro ⟨rfl | hx, hk⟩
  · exact absurd hk (h.no_fragment hp (addDatabase_eq_ok.1 hc).1 n)
  · exact ⟨hx, hk⟩

theorem has_removeDatabase (h : Coherent c) (hc : c.removeDatabase name = .ok (d, c')) (x n : String) :
    c'.Has x n ↔ name ≠ x ∧ c.Has x n := by
  have hp := h.plain name (Maps.mem_of_get (removeDatabase_eq_ok.1 hc).1)
  unfold Has
  rw [mem_removeDatabase hc, and_assoc]
  refine and_congr_right fun hne => and_congr_right fun hx => Maps.mem_congr ?_
  rw [get_removeDatabase hc hp (h.plain x hx) hne]

theorem has_addFragment (h : Coherent c) (hc : c.addFragment f = .ok c') (x n : String) :
    c'.Has x n ↔ (f.db = x ∧ f.name = n) ∨ c.Has x n := by
  have hmem := mem_addFragment hc
  obtain ⟨-, d, hd, rfl⟩ := addFragment_eq_ok.1 hc
  have hdb := Maps.mem_of_get hd
  unfold Has
  rw [hmem, Maps.mem_insert]
  constructor
  · rintro ⟨hx, hk | hk⟩
    · exact .inl (key_injective (h.plain _ hdb) (h.plain x hx) hk)
    · exact .inr ⟨hx, hk⟩
  · rintro (⟨rfl, rfl⟩ | ⟨hx, hk⟩)
    · exact ⟨hdb, .inl rfl⟩
    · exact ⟨hx, .inr hk⟩

theorem has_removeFragment (h : Coherent c) (hp : Name.Plain db) (hc : c.removeFragment db name = .ok (f, c'))
    (x n : String) : c'.Has x n ↔ ¬(db = x ∧ name = n) ∧ c.Has x n := by
  obtain ⟨-, hfragments, hmem⟩ := removeFragment_effect hc
  unfold Has
  rw [hmem, hfragments, Maps.mem_erase]
  constructor
  · rintro ⟨hx, hne, hk⟩
    refine ⟨?_, hx, hk⟩
    rintro ⟨rfl, rfl⟩
    exact hne rfl
  · rintro ⟨hne, hx, hk⟩
    exact ⟨hx, fun e => hne (key_injective hp (h.plain x hx) e), hk⟩

theorem not_has_of_addFragment (hc : c.addFragment f = .ok c') : ¬c.Has f.db f.name :=
  fun h => (addFragment_eq_ok.1 hc).1 h.2

/-- A fragment that is removed was found. -/
theorem has_of_removeFragment (h : Coherent c) (hp : Name.Plain db) (hc : c.removeFragment db name = .ok (f, c')) :
    c.Has db name := by
  have hf := (removeFragment_effect hc).1
  exact ⟨(h.entry hp hf).2.2, Maps.mem_of_get hf⟩

theorem not_has_of_removeFragment_error {e : Error} (hc : c.removeFragment db name = .error e) :
    ¬c.Has db name := by
  rintro h
  obtain ⟨f, hf⟩ := has_iff.1 h
  obtain ⟨c', hok⟩ := removeFragment_found hf
  rw [hok] at hc
  cases hc

theorem not_mem_of_removeDatabase_error {e : Error} (hc : c.removeDatabase name = .error e) :
    name ∉ c.databases := by
  intro h
  obtain ⟨d, hd⟩ := Maps.get_of_mem h
  obtain ⟨c', hok⟩ := removeDatabase_found (database_eq_ok.2 hd)
  rw [hok] at hc
  cases hc

end Catalog

end FragmentEngine
