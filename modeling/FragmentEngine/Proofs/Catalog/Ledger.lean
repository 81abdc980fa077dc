import FragmentEngine.Engine.World
import FragmentEngine.Proofs.Catalog
/-!
# Ledgers

A ledger lists what has been registered and not removed since. A catalog that has been changed any number of times
says what the ledger of these changes says: its lists follow the order of registration, and its counts are the sums
over what is listed.
-/

namespace FragmentEngine

/-! ## Changes of a catalog -/

inductive Change where
  | addDatabase (name : String)
  | removeDatabase (name : String)
  | addFragment (f : FragmentEntry)
  | removeFragment (db name : String)

namespace Change

def call : Change → Call
  | .addDatabase name => .addDatabase name
  | .removeDatabase name => .removeDatabase name
  | .addFragment f => .addFragment f
  | .removeFragment db name => .removeFragment db name

/-- All names are plain, so that no two fragments share a key. -/
def Plain : Change → Prop
  | .addDatabase name | .removeDatabase name => Name.Plain name
  | .addFragment f => Name.Plain f.db ∧ Name.Plain f.name
  | .removeFragment db name => Name.Plain db ∧ Name.Plain name

/-- The catalog that a change makes of another. -/
def apply (c : Catalog) : Change → Except Error Catalog
  | .addDatabase name => (c.addDatabase name).map Prod.snd
  | .removeDatabase name => (c.removeDatabase name).map Prod.snd
  | .addFragment f => c.addFragment f
  | .removeFragment db name => (c.removeFragment db name).map Prod.snd

/-- A change is made in the catalog alone, or refused and changes nothing. -/
theorem perform_cases (w : World) (change : Change) :
    (∃ c a, change.apply w.catalog = .ok c ∧ change.call.perform w = (.ok a, { w with catalog := c })) ∨
    ∃ e, change.apply w.catalog = .error e ∧ change.call.perform w = (.error e, w) := by
  unfold call apply Call.perform World.withCatalog
  cases change with
  | addDatabase name => cases h : w.catalog.addDatabase name <;> simp [h, Except.map]
  | removeDatabase name => cases h : w.catalog.removeDatabase name <;> simp [h, Except.map]
  | addFragment f => cases h : w.catalog.addFragment f <;> simp [h, Except.map]
  | removeFragment db name => cases h : w.catalog.removeFragment db name <;> simp [h, Except.map]

end Change

/-- The world after the changes of a history, the last of which comes first. -/
def World.changed (w : World) : List Change → World
  | [] => w
  | change :: earlier => (change.call.perform (w.changed earlier)).2

/-! ## Ledgers -/

structure Ledger where
  databases : List String
  /-- The fragments in the order they were registered. -/
  fragments : List FragmentEntry

namespace Ledger

def empty : Ledger := ⟨[], []⟩

/-- The fragments of a database. -/
def of (l : Ledger) (db : String) : List FragmentEntry := l.fragments.filter (·.db = db)

/-- The ledger after a change: what is there already is not added again, and fragments need their database. -/
def record (l : Ledger) : Change → Ledger
  | .addDatabase name => if name ∈ l.databases then l else ⟨l.databases ++ [name], l.fragments⟩
  | .removeDatabase name => ⟨l.databases.filter (· ≠ name), l.fragments.filter (·.db ≠ name)⟩
  | .addFragment f =>
    if f.db ∈ l.databases ∧ ∀ g ∈ l.fragments, ¬(g.db = f.db ∧ g.name = f.name) then
      ⟨l.databases, l.fragments ++ [f]⟩
    else l
  | .removeFragment db name => ⟨l.databases, l.fragments.filter fun f => ¬(f.db = db ∧ f.name = name)⟩

/-- The ledger of a history, the last change of which comes first. -/
def after : List Change → Ledger
  | [] => empty
  | change :: earlier => (after earlier).record change

end Ledger

/-! ## Catalogs that follow a ledger -/

namespace Catalog

/-- A catalog with the databases and fragments of a ledger, each list in the ledger's order. -/
structure Follows (c : Catalog) (l : Ledger) : Prop where
  databases : ∀ db, db ∈ c.databases ↔ db ∈ l.databases
  fragments : ∀ k f, c.fragments[k]? = some f ↔ f ∈ l.fragments ∧ k = key f.db f.name
  listed : ∀ db d, c.databases[db]? = some d → d.fragments = (l.of db).map (·.name)

namespace Follows

variable {c c' : Catalog} {l : Ledger} {db name : String} {d : DatabaseEntry} {f : FragmentEntry} {e : Error}

theorem empty : Follows .empty .empty where
  databases db := by simp [Catalog.empty, Ledger.empty]
  fragments k f := by simp [Catalog.empty, Ledger.empty]
  listed db d hd := by simp [Catalog.empty] at hd

theorem entry (h : Follows c l) (hf : f ∈ l.fragments) : c.fragments[key f.db f.name]? = some f :=
  (h.fragments _ f).2 ⟨hf, rfl⟩

theorem housed (h : Follows c l) (hc : c.Coherent) (hf : f ∈ l.fragments) : f.db ∈ c.databases :=
  (hc.filed _ f (h.entry hf)).2

/-- A fragment of the ledger is found under the key of a plain database only if it goes by its names. -/
theorem names_of_key (h : Follows c l) (hc : c.Coherent) (hp : Name.Plain db) (hf : f ∈ l.fragments)
    (hkey : key f.db f.name = key db name) : f.db = db ∧ f.name = name :=
  key_injective (hc.plain _ (h.housed hc hf)) hp hkey

theorem addDatabase (h : Follows c l) (hc : c.Coherent) (hadd : c.addDatabase name = .ok (d, c')) :
    Follows c' (l.record (.addDatabase name)) := by
  have hmem := mem_addDatabase hadd
  obtain ⟨hnew, -, rfl⟩ := addDatabase_eq_ok.1 hadd
  have hnone : l.of name = [] := List.filter_eq_nil_iff.2 fun f hf => by
    simpa using fun e : f.db = name => hnew (e ▸ h.housed hc hf)
  rw [Ledger.record, if_neg fun hl => hnew ((h.databases name).2 hl)]
  refine ⟨fun db => ?_, h.fragments, fun db d hd => ?_⟩
  · rw [hmem, h.databases, List.mem_append, List.mem_singleton]
    grind
  · rw [Maps.get_insert] at hd
    split at hd
    · rename_i he
      cases hd
      rw [← he]
      exact (congrArg (List.map (·.name)) hnone).symm
    · exact h.listed db d hd

theorem addDatabase_error (h : Follows c l) (hadd : c.addDatabase name = .error e) :
    l.record (.addDatabase name) = l := by
  refine if_pos ((h.databases name).1 ?_)
  by_contra hnew
  rw [addDatabase_eq_ok.2 ⟨hnew, rfl, rfl⟩] at hadd
  cases hadd

theorem removeDatabase (h : Follows c l) (hc : c.Coherent) (hremove : c.removeDatabase name = .ok (d, c')) :
    Follows c' (l.record (.removeDatabase name)) := by
  have hmem := mem_removeDatabase hremove
  obtain ⟨hd, rfl⟩ := removeDatabase_eq_ok.1 hremove
  have hp := hc.plain name (Maps.mem_of_get hd)
  refine ⟨fun db => ?_, fun k f => ?_, fun db d' hd' => ?_⟩
  · rw [hmem, h.databases, Ledger.record, List.mem_filter]
    grind
  · rw [getElem?_foldl_erase, Ledger.record, List.mem_filter]
    simp only [decide_not, Bool.not_eq_eq_eq_not, Bool.not_true, decide_eq_false_iff_not]
    constructor
    · intro hf
      split at hf
      · cases hf
      · rename_i hk
        obtain ⟨hl, rfl⟩ := (h.fragments k f).1 hf
        refine ⟨⟨hl, ?_⟩, rfl⟩
        -- An entry of the removed database would have been on its list.
        rintro rfl
        exact hk (List.mem_map.2 ⟨f.name, ((hc.accounts _ d hd).listed _).2 (Maps.mem_of_get hf), rfl⟩)
    · rintro ⟨⟨hf, hne⟩, rfl⟩
      rw [if_neg, h.entry hf]
      intro hk
      obtain ⟨n, -, hkey⟩ := List.mem_map.1 hk
      exact hne (h.names_of_key hc hp hf hkey.symm).1
  · obtain ⟨hne, -⟩ := (hmem db).1 (Maps.mem_of_get hd')
    rw [Maps.get_erase, if_neg hne] at hd'
    rw [h.listed db d' hd', Ledger.of, Ledger.of, Ledger.record, List.filter_filter]
    refine congrArg _ (List.filter_congr fun f _ => ?_)
    grind

theorem removeDatabase_error (h : Follows c l) (hc : c.Coherent) (hremove : c.removeDatabase name = .error e) :
    l.record (.removeDatabase name) = l := by
  have hnot := not_mem_of_removeDatabase_error hremove
  have hdatabases : l.databases.filter (· ≠ name) = l.databases := List.filter_eq_self.2 fun db hdb => by
    simpa using fun e : db = name => hnot (e ▸ (h.databases db).2 hdb)
  have hfragments : l.fragments.filter (·.db ≠ name) = l.fragments := List.filter_eq_self.2 fun f hf => by
    simpa using fun e : f.db = name => hnot (e ▸ h.housed hc hf)
  rw [Ledger.record, hdatabases, hfragments]

/-- A name is taken in the catalog exactly if it is in the ledger. -/
theorem taken_iff (h : Follows c l) (hc : c.Coherent) (hp : Name.Plain db) :
    key db name ∈ c.fragments ↔ ∃ g ∈ l.fragments, g.db = db ∧ g.name = name := by
  constructor
  · intro hk
    obtain ⟨g, hg⟩ := Maps.get_of_mem hk
    obtain ⟨hg, hkey⟩ := (h.fragments _ g).1 hg
    exact ⟨g, hg, h.names_of_key hc hp hg hkey.symm⟩
  · rintro ⟨g, hg, rfl, rfl⟩
    exact Maps.mem_of_get (h.entry hg)

theorem addFragment (h : Follows c l) (hc : c.Coherent) (hp : Name.Plain f.db) (hadd : c.addFragment f = .ok c') :
    Follows c' (l.record (.addFragment f)) := by
  have hmem := mem_addFragment hadd
  obtain ⟨hnew, d, hd, rfl⟩ := addFragment_eq_ok.1 hadd
  have hfree : ∀ g ∈ l.fragments, ¬(g.db = f.db ∧ g.name = f.name) := fun g hg he =>
    hnew ((h.taken_iff hc hp).2 ⟨g, hg, he⟩)
  rw [Ledger.record, if_pos ⟨(h.databases _).1 (Maps.mem_of_get hd), hfree⟩]
  refine ⟨fun db => ?_, fun k g => ?_, fun db d' hd' => ?_⟩
  · rw [hmem, h.databases]
  · rw [Maps.get_insert, List.mem_append, List.mem_singleton]
    split
    · rename_i hk
      constructor
      · intro hg
        cases hg
        exact ⟨.inr rfl, hk.symm⟩
      · rintro ⟨hg | rfl, rfl⟩
        · exact absurd (Maps.mem_of_get (hk ▸ h.entry hg)) hnew
        · rfl
    · rename_i hk
      rw [h.fragments]
      constructor
      · rintro ⟨hg, he⟩
        exact ⟨.inl hg, he⟩
      · rintro ⟨hg | rfl, he⟩
        · exact ⟨hg, he⟩
        · exact absurd he.symm hk
  · rw [Maps.get_insert] at hd'
    split at hd'
    · rename_i he
      subst he
      cases hd'
      simp [Ledger.of, List.filter_append, h.listed _ d hd]
    · rename_i hne
      rw [h.listed db d' hd']
      simp [Ledger.of, List.filter_append, hne]

theorem addFragment_error (h : Follows c l) (hc : c.Coherent) (hp : Name.Plain f.db)
    (hadd : c.addFragment f = .error e) : l.record (.addFragment f) = l := by
  refine if_neg ?_
  rintro ⟨hdb, hfree⟩
  have hnew : key f.db f.name ∉ c.fragments := fun hk => by
    obtain ⟨g, hg, he⟩ := (h.taken_iff hc hp).1 hk
    exact hfree g hg he
  obtain ⟨d, hd⟩ := Maps.get_of_mem ((h.databases _).2 hdb)
  rw [addFragment_eq_ok.2 ⟨hnew, d, hd, rfl⟩] at hadd
  cases hadd

theorem removeFragment (h : Follows c l) (hc : c.Coherent) (hp : Name.Plain db)
    (hremove : c.removeFragment db name = .ok (f, c')) : Follows c' (l.record (.removeFragment db name)) := by
  obtain ⟨hf, hfragments, hmem⟩ := removeFragment_effect hremove
  obtain ⟨d, hd⟩ := Maps.get_of_mem (hc.entry hp hf).2.2
  refine ⟨fun x => ?_, fun k g => ?_, fun x d' hd' => ?_⟩
  · rw [hmem, h.databases]
    rfl
  · rw [hfragments, Maps.get_erase, Ledger.record, List.mem_filter]
    simp only [decide_eq_true_eq]
    constructor
    · intro hg
      split at hg
      · cases hg
      · rename_i hk
        obtain ⟨hl, rfl⟩ := (h.fragments k g).1 hg
        refine ⟨⟨hl, ?_⟩, rfl⟩
        rintro ⟨rfl, rfl⟩
        exact hk rfl
    · rintro ⟨⟨hg, hne⟩, rfl⟩
      rw [if_neg fun hk => hne (h.names_of_key hc hp hg hk.symm), h.entry hg]
  · obtain ⟨-, rfl⟩ := (removeFragment_eq_ok hd).1 hremove
    rw [Maps.get_insert] at hd'
    split at hd'
    · rename_i he
      subst he
      cases hd'
      simp only [h.listed _ d hd, Ledger.of, Ledger.record, List.filter_filter, List.filter_map]
      refine congrArg _ (List.filter_congr fun g _ => ?_)
      grind
    · rename_i hne
      rw [h.listed x d' hd', Ledger.of, Ledger.of, Ledger.record, List.filter_filter]
      refine congrArg _ (List.filter_congr fun g _ => ?_)
      grind

theorem removeFragment_error (h : Follows c l) (hc : c.Coherent) (hp : Name.Plain db)
    (hremove : c.removeFragment db name = .error e) : l.record (.removeFragment db name) = l := by
  have hnone : l.fragments.filter (fun f => ¬(f.db = db ∧ f.name = name)) = l.fragments :=
    List.filter_eq_self.2 fun f hf => by
      refine decide_eq_true fun he => ?_
      refine not_has_of_removeFragment_error hremove ⟨?_, (h.taken_iff hc hp).2 ⟨f, hf, he⟩⟩
      exact he.1 ▸ h.housed hc hf
  rw [Ledger.record, hnone]

variable {change : Change}

theorem made (h : Follows c l) (hc : c.Coherent) (hp : change.Plain) (happly : change.apply c = .ok c') :
    c'.Coherent ∧ Follows c' (l.record change) := by
  cases change with
  | addDatabase name =>
    obtain ⟨r, hadd, rfl⟩ := Outcome.map_eq_ok.1 happly
    exact ⟨hc.addDatabase hp hadd, h.addDatabase hc hadd⟩
  | removeDatabase name =>
    obtain ⟨r, hremove, rfl⟩ := Outcome.map_eq_ok.1 happly
    exact ⟨hc.removeDatabase hremove, h.removeDatabase hc hremove⟩
  | addFragment f => exact ⟨hc.addFragment happly, h.addFragment hc hp.1 happly⟩
  | removeFragment db name =>
    obtain ⟨r, hremove, rfl⟩ := Outcome.map_eq_ok.1 happly
    exact ⟨hc.removeFragment hp.1 hremove, h.removeFragment hc hp.1 hremove⟩

theorem refused (h : Follows c l) (hc : c.Coherent) (hp : change.Plain) (happly : change.apply c = .error e) :
    l.record change = l := by
  cases change with
  | addDatabase name => exact h.addDatabase_error (Outcome.map_eq_error.1 happly)
  | removeDatabase name => exact h.removeDatabase_error hc (Outcome.map_eq_error.1 happly)
  | addFragment f => exact h.addFragment_error hc hp.1 happly
  | removeFragment db name => exact h.removeFragment_error hc hp.1 (Outcome.map_eq_error.1 happly)

end Follows

/-! ## After any history -/

/-- What a catalog says of what a ledger lists. -/
structure Accurate (c : Catalog) (l : Ledger) : Prop where
  databases : ∀ db, db ∈ c.databases ↔ db ∈ l.databases
  /-- The entries are the fragments of the ledger, each filed under its own names. -/
  fragments : ∀ (k : String) (f : FragmentEntry),
    c.fragments[k]? = some f ↔ f ∈ l.fragments ∧ k = key f.db f.name
  housed : ∀ (k : String) (f : FragmentEntry), c.fragments[k]? = some f → f.db ∈ c.databases
  nodup : ∀ (db : String) (d : DatabaseEntry), c.databases[db]? = some d → d.fragments.Nodup
  /-- Lists are in the order of registration. -/
  ordered : ∀ (db : String) (d : DatabaseEntry), c.databases[db]? = some d → d.fragments = (l.of db).map (·.name)
  /-- Lists name exactly the entries of their database. -/
  listed : ∀ (db : String) (d : DatabaseEntry), c.databases[db]? = some d →
    ∀ name, name ∈ d.fragments ↔ key db name ∈ c.fragments
  found : ∀ (db name : String) (f : FragmentEntry), c.fragment db name = .ok f → f.db = db ∧ f.name = name
  rowCount : ∀ (db : String) (d : DatabaseEntry), c.databases[db]? = some d →
    d.rowCount = ((entries c.fragments db d.fragments).map (·.rowCount)).sum
  size : ∀ (db : String) (d : DatabaseEntry), c.databases[db]? = some d →
    d.size = ((entries c.fragments db d.fragments).map (·.size)).sum
  /-- A removal takes no more off the counts of a database than there is. -/
  covered : ∀ (db : String) (d : DatabaseEntry) (name : String) (f : FragmentEntry) (c' : Catalog),
    c.databases[db]? = some d → c.removeFragment db name = .ok (f, c') →
      f.rowCount ≤ d.rowCount ∧ f.size ≤ d.size

theorem Accounts.le {d : DatabaseEntry} {fs : Std.ExtTreeMap String FragmentEntry compare} {db name : String}
    {f : FragmentEntry} (h : Accounts d fs db) (hf : fs[key db name]? = some f) :
    f.rowCount ≤ d.rowCount ∧ f.size ≤ d.size := by
  have hmem := (h.listed name).2 (Maps.mem_of_get hf)
  rw [h.rowCount, h.size, sum_entries_filter _ h.nodup hmem hf, sum_entries_filter _ h.nodup hmem hf]
  exact ⟨Nat.le_add_right _ _, Nat.le_add_right _ _⟩

theorem Follows.accurate {c : Catalog} {l : Ledger} (h : Follows c l) (hc : c.Coherent) : Accurate c l where
  databases := h.databases
  fragments := h.fragments
  housed k f hf := (hc.filed k f hf).2
  nodup db d hd := (hc.accounts db d hd).nodup
  ordered := h.listed
  listed db d hd := (hc.accounts db d hd).listed
  found db name f hf := by
    obtain ⟨hdb, hf⟩ := fragment_eq_ok.1 hf
    obtain ⟨hfdb, hfname, -⟩ := hc.entry (hc.plain db hdb) hf
    exact ⟨hfdb, hfname⟩
  rowCount db d hd := (hc.accounts db d hd).rowCount
  size db d hd := (hc.accounts db d hd).size
  covered db d name f c' hd hremove := (hc.accounts db d hd).le (removeFragment_effect hremove).1

end Catalog

namespace World

theorem changed_follows {w : World} (hw : w.catalog = .empty) {history : List Change}
    (hp : ∀ change ∈ history, change.Plain) :
    (w.changed history).catalog.Coherent ∧ (w.changed history).catalog.Follows (.after history) := by
  induction history with
  | nil =>
    rw [changed, hw]
    exact ⟨.empty, .empty⟩
  | cons change earlier ih =>
    obtain ⟨hc, h⟩ := ih fun change' hmem => hp change' (List.mem_cons_of_mem _ hmem)
    have hplain := hp change List.mem_cons_self
    rw [changed, Ledger.after]
    rcases change.perform_cases (w.changed earlier) with ⟨c', a, happly, hperform⟩ | ⟨e, happly, hperform⟩
    · rw [hperform]
      exact h.made hc hplain happly
    · rw [hperform, h.refused hc hplain happly]
      exact ⟨hc, h⟩

/-- Whatever changes a catalog that was empty has gone through, it is accurate about what has been registered and
not removed since, and a change that fails leaves everything as it is. -/
theorem changed_accurate (w : World) (hw : w.catalog = .empty) (history : List Change)
    (hp : ∀ change ∈ history, change.Plain) :
    (w.changed history).catalog.Accurate (.after history) ∧
    ∀ (change : Change) (e : Error), (change.call.perform (w.changed history)).1 = .error e →
      (change.call.perform (w.changed history)).2 = w.changed history := by
  obtain ⟨hc, h⟩ := changed_follows hw hp
  refine ⟨h.accurate hc, fun change e he => ?_⟩
  rcases change.perform_cases (w.changed history) with ⟨c', a, -, hperform⟩ | ⟨e', -, hperform⟩
  · rw [hperform] at he
    cases he
  · rw [hperform]

/-- Two fragments are registered, and the first of them is removed and registered again. -/
def registeredAgain : List Change :=
  let f := FragmentEntry.describe "db" none (.empty "f" ⟨[]⟩)
  let g := FragmentEntry.describe "db" none (.empty "g" ⟨[]⟩)
  let changes : List Change :=
    [.addDatabase "db", .addFragment f, .addFragment g, .addFragment f, .removeFragment "db" "f", .addFragment f]
  changes.reverse

/-- What is registered again comes last. -/
theorem changed_accurate_registeredAgain : (∀ change ∈ registeredAgain, change.Plain) ∧
    ∃ d, ((inMemory .empty).changed registeredAgain).catalog.databases["db"]? = some d ∧
      d.fragments = ["g", "f"] := by
  have hp : ∀ change ∈ registeredAgain, change.Plain := by
    simp [registeredAgain, Change.Plain, Name.Plain, FragmentEntry.describe, Fragment.empty]
  obtain ⟨h, -⟩ := changed_accurate (inMemory .empty) rfl registeredAgain hp
  obtain ⟨d, hd⟩ := Maps.get_of_mem ((h.databases "db").2 (by decide +kernel))
  exact ⟨hp, d, hd, (h.ordered "db" d hd).trans (by decide +kernel)⟩

end World

end FragmentEngine
